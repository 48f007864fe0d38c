import Neroshop.Foundation.Keyed
import Neroshop.Foundation.Transition
import Neroshop.Node.KeyMapper
import Neroshop.Node.Succession

/-!
# Concurrent calls of `KeyMapper::add`

Calls share the maps and the table `mappings`.  A call takes a mutex for as
long as it stages its terms, copies a group of maps or empties one, and holds
none between the statement that looks a term up and the one that writes it.
What one call has staged may be written by another that has copied it, or
emptied by one that has not.
-/

namespace Neroshop.Node

open Neroshop.Foundation Neroshop.Routing

inductive MapMutex where
  | user
  | listing
  | order
  | productRating
  | sellerRating
  | message
  deriving DecidableEq, Repr

/-- The mutexes in the order in which `sync` and `clear_cache` take them. -/
def mapMutexes : List MapMutex :=
  [.user, .listing, .order, .productRating, .sellerRating, .message]

def TermMap.mutex : TermMap → MapMutex
  | .userIds | .displayNames => .user
  | .productIds | .productNames | .productCategories | .productTags
  | .productCodes | .listingIds | .listingLocations | .sellerIds => .listing
  | .orderIds | .orderRecipients => .order
  | .productRatings => .productRating
  | .sellerRatings => .sellerRating
  | .messages => .message

def KeyMapper.copy (mapper : KeyMapper) (mutex : MapMutex) : KeyMapper :=
  mapper.filter fun staged => staged.map.mutex = mutex

def KeyMapper.clear (mapper : KeyMapper) (mutex : MapMutex) : KeyMapper :=
  mapper.filter fun staged => staged.map.mutex ≠ mutex

inductive AddPhase where
  | called
  /-- The terms of a copy to look up, then the mutexes to take for the next. -/
  | syncing (copied : List StagedTerm) (mutexes : List MapMutex)
  /-- No row has been found for the term. -/
  | inserting (staged : StagedTerm) (copied : List StagedTerm)
      (mutexes : List MapMutex)
  | clearing (mutexes : List MapMutex)
  | returned
  /-- The metadata is not a string. -/
  | threw
  deriving DecidableEq, Repr

structure AddCall where
  key : String
  value : String
  phase : AddPhase
  deriving DecidableEq, Repr

structure AddState where
  mapper : KeyMapper
  rows : List Mapping
  calls : List AddCall
  deriving DecidableEq, Repr

/--
Which call goes on, the order in which it reads a copy, and whether the
statement that it sends is executed.
-/
structure Turn where
  call : Nat
  order : List StagedTerm
  executes : Bool
  deriving DecidableEq, Repr

def stagedTerms (json : Json) (key : String) :
    Except Fault (List StagedTerm) := do
  let metadata ← (← json.index "metadata").getString
  return (searchTerms json metadata).map fun (map, searchTerm) =>
    ⟨map, searchTerm, key⟩

def definedTerms (env : Externals) (key value : String) : List StagedTerm :=
  match env.parse value with
  | .error _ => []
  | .ok json =>
      match stagedTerms json key with
      | .ok staged => staged
      | .error _ => []

def StagedTerm.pair (staged : StagedTerm) : String × String :=
  (staged.searchTerm, staged.key)

def Mapping.pair (row : Mapping) : String × String := (row.searchTerm, row.key)

def Mapping.pairs (rows : List Mapping) : List (String × String) :=
  rows.map Mapping.pair

def AddState.setCall (state : AddState) (turn : Turn) (call : AddCall)
    (phase : AddPhase) : AddState :=
  { state with calls := state.calls.set turn.call { call with phase := phase } }

/-- What one call does next, up to where another can come in between. -/
def AddState.advance (env : Externals) (state : AddState) (turn : Turn)
    (call : AddCall) : Option AddState :=
  match call.phase with
  | .called =>
      match env.parse call.value with
      | .error .parseError => some (state.setCall turn call .returned)
      | .error .outOfRange => some (state.setCall turn call .threw)
      | .ok json =>
          match stagedTerms json call.key with
          | .error _ => some (state.setCall turn call .threw)
          | .ok staged =>
              some { state.setCall turn call (.syncing [] mapMutexes) with
                mapper := state.mapper ++ staged }
  | .syncing [] [] => some (state.setCall turn call (.clearing mapMutexes))
  | .syncing [] (mutex :: mutexes) =>
      if turn.order.Perm (state.mapper.copy mutex)
      then some (state.setCall turn call (.syncing turn.order mutexes))
      else none
  | .syncing (staged :: copied) mutexes =>
      if (chars staged.key).length ≠ 64 ∨
          turn.executes ∧ staged.pair ∈ Mapping.pairs state.rows
      then some (state.setCall turn call (.syncing copied mutexes))
      else some (state.setCall turn call (.inserting staged copied mutexes))
  | .inserting staged copied mutexes =>
      some { state.setCall turn call (.syncing copied mutexes) with
        rows := if turn.executes
          then state.rows ++
            [⟨staged.searchTerm, staged.key, staged.map.content⟩]
          else state.rows }
  | .clearing [] => some (state.setCall turn call .returned)
  | .clearing (mutex :: mutexes) =>
      some { state.setCall turn call (.clearing mutexes) with
        mapper := state.mapper.clear mutex }
  | .returned => none
  | .threw => none

def addStep (env : Externals) (state : AddState) (turn : Turn) :
    Option AddState :=
  match state.calls[turn.call]? with
  | some call => state.advance env turn call
  | none => none

/-! ## What becomes of a term -/

/-- The terms of a copy that the call has yet to write. -/
def AddPhase.copied : AddPhase → List StagedTerm
  | .syncing copied _ => copied
  | .inserting staged copied _ => staged :: copied
  | _ => []

/-- The mutexes under which the call has yet to copy the maps. -/
def AddPhase.mutexes : AddPhase → List MapMutex
  | .syncing _ mutexes => mutexes
  | .inserting _ _ mutexes => mutexes
  | _ => []

/-- The pair that has been looked up, and is written next. -/
def AddPhase.inserts : AddPhase → Option (String × String)
  | .inserting staged _ _ => some staged.pair
  | _ => none

/-- The call has staged a term under the mutex, and has yet to copy the maps. -/
def AddCall.Uncopied (env : Externals) (call : AddCall) (mutex : MapMutex) :
    Prop :=
  mutex ∈ call.phase.mutexes ∧
    ∃ staged ∈ definedTerms env call.key call.value, staged.map.mutex = mutex

/--
The statements are executed.  A pair is looked up while no call is about to
write it, and maps are emptied when no call has yet to copy what it has staged
there.
-/
def AddCall.Undisturbed (env : Externals) (state : AddState) (turn : Turn)
    (call : AddCall) : Prop :=
  match call.phase with
  | .syncing (staged :: _) _ => turn.executes = true ∧
      ∀ other ∈ state.calls, other.phase.inserts ≠ some staged.pair
  | .inserting _ _ _ => turn.executes = true
  | .clearing (mutex :: _) => ∀ other ∈ state.calls, ¬ other.Uncopied env mutex
  | _ => True

/-- No other call disturbs the step of the one whose turn it is. -/
def Undisturbed (env : Externals) (state : AddState) (turn : Turn) : Prop :=
  ∀ call ∈ state.calls[turn.call]?, call.Undisturbed env state turn

instance (env : Externals) (call : AddCall) (mutex : MapMutex) :
    Decidable (call.Uncopied env mutex) :=
  inferInstanceAs (Decidable (_ ∧ ∃ _ ∈ _, _))

instance (env : Externals) (state : AddState) (turn : Turn) (call : AddCall) :
    Decidable (call.Undisturbed env state turn) :=
  match call with
  | ⟨_, _, .syncing (_ :: _) _⟩ => inferInstanceAs (Decidable (_ ∧ ∀ _ ∈ _, _))
  | ⟨_, _, .inserting _ _ _⟩ => inferInstanceAs (Decidable (_ = true))
  | ⟨_, _, .clearing (_ :: _)⟩ => inferInstanceAs (Decidable (∀ _ ∈ _, _))
  | ⟨_, _, .syncing [] _⟩ | ⟨_, _, .clearing []⟩ | ⟨_, _, .called⟩
  | ⟨_, _, .returned⟩ | ⟨_, _, .threw⟩ => inferInstanceAs (Decidable True)

instance (env : Externals) (state : AddState) (turn : Turn) :
    Decidable (Undisturbed env state turn) :=
  inferInstanceAs (Decidable (∀ _ ∈ _, _))

/-- The pair is in the table, or the call has it in a copy that it has yet to
write, or in a map that it has yet to copy. -/
inductive Kept (state : AddState) (call : AddCall) (staged : StagedTerm) : Prop
  | written (h : staged.pair ∈ Mapping.pairs state.rows)
  | copied (h : staged ∈ call.phase.copied)
  | mapped (h : staged ∈ state.mapper)
      (hmutex : staged.map.mutex ∈ call.phase.mutexes)

section Steps

variable {env : Externals} {state after : AddState} {turn : Turn}
  {call other : AddCall} {phase : AddPhase} {staged : StagedTerm}

/-- What a step of a call does, up to the phase that it comes to. -/
inductive Advances (env : Externals) (state : AddState) (turn : Turn)
    (call : AddCall) : AddPhase → AddState → Prop
  | idle (phase : AddPhase) (hphase : phase ≠ .called)
      (hinserts : phase.inserts = none) (hcopied : call.phase.copied = [])
      (hmutexes : call.phase.mutexes = [])
      (hcalled : call.phase = .called →
        definedTerms env call.key call.value = []) :
      Advances env state turn call phase (state.setCall turn call phase)
  | stage (hphase : call.phase = .called) :
      Advances env state turn call (.syncing [] mapMutexes)
        { state.setCall turn call (.syncing [] mapMutexes) with
          mapper := state.mapper ++ definedTerms env call.key call.value }
  | copy (mutex : MapMutex) (mutexes : List MapMutex)
      (hphase : call.phase = .syncing [] (mutex :: mutexes))
      (hperm : turn.order.Perm (state.mapper.copy mutex)) :
      Advances env state turn call (.syncing turn.order mutexes)
        (state.setCall turn call (.syncing turn.order mutexes))
  | skip (staged : StagedTerm) (copied : List StagedTerm)
      (mutexes : List MapMutex)
      (hphase : call.phase = .syncing (staged :: copied) mutexes)
      (hskip : (chars staged.key).length ≠ 64 ∨
        staged.pair ∈ Mapping.pairs state.rows) :
      Advances env state turn call (.syncing copied mutexes)
        (state.setCall turn call (.syncing copied mutexes))
  | miss (staged : StagedTerm) (copied : List StagedTerm)
      (mutexes : List MapMutex)
      (hphase : call.phase = .syncing (staged :: copied) mutexes)
      (hmiss : turn.executes = true →
        staged.pair ∉ Mapping.pairs state.rows) :
      Advances env state turn call (.inserting staged copied mutexes)
        (state.setCall turn call (.inserting staged copied mutexes))
  | write (staged : StagedTerm) (copied : List StagedTerm)
      (mutexes : List MapMutex)
      (hphase : call.phase = .inserting staged copied mutexes) :
      Advances env state turn call (.syncing copied mutexes)
        { state.setCall turn call (.syncing copied mutexes) with
          rows := state.rows ++
            [⟨staged.searchTerm, staged.key, staged.map.content⟩] }
  | fail (staged : StagedTerm) (copied : List StagedTerm)
      (mutexes : List MapMutex)
      (hphase : call.phase = .inserting staged copied mutexes)
      (hexecutes : turn.executes = false) :
      Advances env state turn call (.syncing copied mutexes)
        (state.setCall turn call (.syncing copied mutexes))
  | clear (mutex : MapMutex) (mutexes : List MapMutex)
      (hphase : call.phase = .clearing (mutex :: mutexes)) :
      Advances env state turn call (.clearing mutexes)
        { state.setCall turn call (.clearing mutexes) with
          mapper := state.mapper.clear mutex }

theorem advances_called (hphase : call.phase = .called)
    (hstep : state.advance env turn call = some after) :
    ∃ phase, Advances env state turn call phase after := by
  have hcopied : call.phase.copied = [] := by rw [hphase]; rfl
  have hmutexes : call.phase.mutexes = [] := by rw [hphase]; rfl
  simp only [AddState.advance, hphase] at hstep
  cases hparse : env.parse call.value with
  | error error =>
      cases error with
      | parseError | outOfRange =>
          simp only [hparse, Option.some.injEq] at hstep
          subst hstep
          refine ⟨_, .idle _ (by simp) rfl hcopied hmutexes fun _ => ?_⟩
          simp [definedTerms, hparse]
  | ok json =>
      simp only [hparse] at hstep
      cases hterms : stagedTerms json call.key with
      | error fault =>
          simp only [hterms, Option.some.injEq] at hstep
          subst hstep
          refine ⟨_, .idle _ (by simp) rfl hcopied hmutexes fun _ => ?_⟩
          simp [definedTerms, hparse, hterms]
      | ok staged =>
          simp only [hterms, Option.some.injEq] at hstep
          have hdefined : definedTerms env call.key call.value = staged := by
            simp [definedTerms, hparse, hterms]
          rw [← hstep, ← hdefined]
          exact ⟨_, .stage hphase⟩

theorem advance_cases (hstep : state.advance env turn call = some after) :
    ∃ phase, Advances env state turn call phase after := by
  have hstart := hstep
  unfold AddState.advance at hstep
  cases hphase : call.phase with
  | called => exact advances_called hphase hstart
  | syncing copied mutexes =>
      simp only [hphase] at hstep
      cases copied with
      | nil =>
          cases mutexes with
          | nil =>
              cases hstep
              exact ⟨_, .idle _ (by simp) rfl (by rw [hphase]; rfl)
                (by rw [hphase]; rfl) (by simp [hphase])⟩
          | cons mutex mutexes =>
              dsimp only at hstep
              split at hstep
              · next hperm =>
                  cases hstep
                  exact ⟨_, .copy mutex mutexes hphase hperm⟩
              · cases hstep
      | cons staged copied =>
          dsimp only at hstep
          split at hstep
          · next hskip =>
              cases hstep
              exact ⟨_, .skip staged copied mutexes hphase
                (hskip.imp_right And.right)⟩
          · next hmiss =>
              cases hstep
              refine ⟨_, .miss staged copied mutexes hphase fun hexecutes h =>
                hmiss (.inr ⟨hexecutes, h⟩)⟩
  | inserting staged copied mutexes =>
      simp only [hphase, Option.some.injEq] at hstep
      subst hstep
      cases hexecutes : turn.executes with
      | true => exact ⟨_, .write staged copied mutexes hphase⟩
      | false => exact ⟨_, .fail staged copied mutexes hphase hexecutes⟩
  | clearing mutexes =>
      simp only [hphase] at hstep
      cases mutexes with
      | nil =>
          cases hstep
          exact ⟨_, .idle _ (by simp) rfl (by rw [hphase]; rfl)
            (by rw [hphase]; rfl) (by simp [hphase])⟩
      | cons mutex mutexes =>
          cases hstep
          exact ⟨_, .clear mutex mutexes hphase⟩
  | returned =>
      rw [hphase] at hstep
      cases hstep
  | threw =>
      rw [hphase] at hstep
      cases hstep

theorem pairs_append (rows : List Mapping) (staged : StagedTerm) :
    Mapping.pairs (rows ++
        [⟨staged.searchTerm, staged.key, staged.map.content⟩]) =
      Mapping.pairs rows ++ [staged.pair] := by
  simp [Mapping.pairs, Mapping.pair, StagedTerm.pair]

theorem Advances.calls (hstep : Advances env state turn call phase after) :
    phase ≠ .called ∧ after.calls = (state.setCall turn call phase).calls := by
  cases hstep with
  | idle _ hphase => exact ⟨hphase, rfl⟩
  | _ => exact ⟨by simp, rfl⟩

/-- The table stays, or gets the pair that the call was about to write. -/
theorem Advances.rows (hstep : Advances env state turn call phase after) :
    Mapping.pairs after.rows = Mapping.pairs state.rows ∨
      ∃ pair, call.phase.inserts = some pair ∧
        Mapping.pairs after.rows = Mapping.pairs state.rows ++ [pair] := by
  cases hstep with
  | write staged copied mutexes hphase =>
      refine .inr ⟨staged.pair, by rw [hphase]; rfl, ?_⟩
      exact pairs_append state.rows staged
  | _ => exact .inl rfl

theorem Advances.subset (hstep : Advances env state turn call phase after) :
    Mapping.pairs state.rows ⊆ Mapping.pairs after.rows := by
  rcases hstep.rows with heq | ⟨pair, -, heq⟩ <;> rw [heq]
  · exact List.Subset.refl _
  · exact List.subset_append_left ..

/-- What a call comes to write is not in the table, and no other call is about
to write it. -/
theorem Advances.inserts (hstep : Advances env state turn call phase after)
    (hundisturbed : call.Undisturbed env state turn) {pair : String × String}
    (h : phase.inserts = some pair) :
    pair ∉ Mapping.pairs after.rows ∧
      ∀ other ∈ state.calls, other.phase.inserts ≠ some pair := by
  cases hstep with
  | idle _ _ hinserts => simp [hinserts] at h
  | miss staged copied mutexes hphase hmiss =>
      cases h
      rw [AddCall.Undisturbed, hphase] at hundisturbed
      exact ⟨hmiss hundisturbed.1, hundisturbed.2⟩
  | _ => cases h

/-- The terms of the other calls stay where they are, or are in the table. -/
theorem Advances.kept_other (hstep : Advances env state turn call phase after)
    (hundisturbed : call.Undisturbed env state turn)
    (hother : other ∈ state.calls)
    (hstaged : staged ∈ definedTerms env other.key other.value)
    (h : Kept state other staged) : Kept after other staged := by
  cases h with
  | written h => exact .written (hstep.subset h)
  | copied h => exact .copied h
  | mapped h hmutex =>
      cases hstep with
      | stage => exact .mapped (List.mem_append_left _ h) hmutex
      | clear mutex mutexes hphase =>
          rw [AddCall.Undisturbed, hphase] at hundisturbed
          have hne : staged.map.mutex ≠ mutex := by
            rintro rfl
            exact hundisturbed other hother ⟨hmutex, staged, hstaged, rfl⟩
          exact .mapped (by simp [KeyMapper.clear, h, hne]) hmutex
      | _ => exact .mapped h hmutex

/-- A call copies what it has staged, and writes or finds what it has copied. -/
theorem Advances.kept_own (hstep : Advances env state turn call phase after)
    (hundisturbed : call.Undisturbed env state turn)
    (hkey : (chars staged.key).length = 64)
    (hstaged : staged ∈ definedTerms env call.key call.value)
    (h : call.phase = .called ∨ Kept state call staged) :
    Kept after { call with phase := phase } staged := by
  rcases h with hcalled | hwritten | hcopied | ⟨hmapped, hmutex⟩
  · cases hstep with
    | idle _ _ _ _ _ hnone => simp [hnone hcalled] at hstaged
    | stage =>
        refine .mapped (List.mem_append_right _ hstaged) ?_
        change staged.map.mutex ∈ mapMutexes
        cases staged.map.mutex <;> simp [mapMutexes]
    | copy _ _ hphase => simp [hcalled] at hphase
    | skip _ _ _ hphase => simp [hcalled] at hphase
    | miss _ _ _ hphase => simp [hcalled] at hphase
    | write _ _ _ hphase => simp [hcalled] at hphase
    | fail _ _ _ hphase => simp [hcalled] at hphase
    | clear _ _ hphase => simp [hcalled] at hphase
  · exact .written (hstep.subset hwritten)
  · cases hstep with
    | idle _ _ _ hnone => simp [hnone] at hcopied
    | stage hphase => simp [hphase, AddPhase.copied] at hcopied
    | copy _ _ hphase => simp [hphase, AddPhase.copied] at hcopied
    | skip first copied mutexes hphase hskip =>
        rw [hphase] at hcopied
        rcases List.mem_cons.mp hcopied with rfl | hrest
        · exact .written (hskip.resolve_left (absurd hkey))
        · exact .copied hrest
    | miss first copied mutexes hphase =>
        rw [hphase] at hcopied
        exact .copied hcopied
    | write first copied mutexes hphase =>
        rw [hphase] at hcopied
        rcases List.mem_cons.mp hcopied with rfl | hrest
        · refine .written ?_
          change staged.pair ∈ Mapping.pairs (state.rows ++ _)
          rw [pairs_append]
          exact List.mem_append_right _ (List.mem_singleton_self _)
        · exact .copied hrest
    | fail _ _ _ hphase hexecutes =>
        rw [AddCall.Undisturbed, hphase] at hundisturbed
        simp [hexecutes] at hundisturbed
    | clear _ _ hphase => simp [hphase, AddPhase.copied] at hcopied
  · cases hstep with
    | idle _ _ _ _ hnone => simp [hnone] at hmutex
    | stage hphase => simp [hphase, AddPhase.mutexes] at hmutex
    | copy mutex mutexes hphase hperm =>
        rw [hphase] at hmutex
        rcases List.mem_cons.mp hmutex with hmutex | hmutex
        · refine .copied (hperm.mem_iff.mpr ?_)
          simp [KeyMapper.copy, hmapped, hmutex]
        · exact .mapped hmapped hmutex
    | skip _ _ _ hphase | miss _ _ _ hphase | fail _ _ _ hphase
    | write _ _ _ hphase =>
        rw [hphase] at hmutex
        exact .mapped hmapped hmutex
    | clear _ _ hphase => simp [hphase, AddPhase.mutexes] at hmutex

theorem definedTerms_key {key value : String} {staged : StagedTerm}
    (h : staged ∈ definedTerms env key value) : staged.key = key := by
  unfold definedTerms stagedTerms at h
  cases hparse : env.parse value with
  | error error => simp [hparse] at h
  | ok json =>
      simp only [hparse] at h
      cases hindex : json.index "metadata" with
      | error fault => simp [hindex, bind, Except.bind] at h
      | ok member =>
          cases hstring : member.getString with
          | error fault => simp [hindex, hstring, bind, Except.bind] at h
          | ok metadata =>
              simp only [hindex, hstring, bind, Except.bind, pure, Except.pure,
                List.mem_map] at h
              obtain ⟨term, -, rfl⟩ := h
              rfl

end Steps

/-! ## Schedules -/

section Schedules

variable {env : Externals} {state after final : AddState} {turn : Turn}
  {turns : List Turn} {calls : List (String × String)} {call other : AddCall}
  {phase : AddPhase} {index : Nat}

def AddState.arguments (state : AddState) : List (String × String) :=
  state.calls.map fun call => (call.key, call.value)

/--
Each call has what it has staged, and what calls are about to write is new: it
is not in the table, and no two of them write the same.
-/
structure Complete (env : Externals) (calls : List (String × String))
    (state : AddState) : Prop where
  arguments : state.arguments = calls
  once : (Mapping.pairs state.rows).Nodup
  kept : ∀ call ∈ state.calls, call.phase ≠ .called →
    ∀ staged ∈ definedTerms env call.key call.value, Kept state call staged
  fresh : ∀ call ∈ state.calls, ∀ pair, call.phase.inserts = some pair →
    pair ∉ Mapping.pairs state.rows
  single : ∀ (first second : Nat) (call other : AddCall)
    (pair : String × String), state.calls[first]? = some call →
    state.calls[second]? = some other → call.phase.inserts = some pair →
    other.phase.inserts = some pair → first = second

/-- One call is in its next phase, and the others are as they were. -/
theorem getElem?_setCall (hcall : state.calls[turn.call]? = some call)
    (h : (state.setCall turn call phase).calls[index]? = some other) :
    index = turn.call ∧ other = { call with phase := phase } ∨
      index ≠ turn.call ∧ state.calls[index]? = some other := by
  obtain ⟨hindex, -⟩ := List.getElem?_eq_some_iff.mp hcall
  rw [AddState.setCall, List.getElem?_set] at h
  split at h
  · next hsame =>
      rw [Option.some.injEq] at h
      exact .inl ⟨hsame.symm, h.symm⟩
  · next hne => exact .inr ⟨fun hsame => hne hsame.symm, h⟩

theorem arguments_setCall (hcall : state.calls[turn.call]? = some call) :
    (state.setCall turn call phase).arguments = state.arguments := by
  obtain ⟨hindex, hget⟩ := List.getElem?_eq_some_iff.mp hcall
  simp only [AddState.arguments, AddState.setCall, List.map_set]
  apply List.ext_getElem
  · simp
  · intro index hfirst hsecond
    rw [List.getElem_set]
    split
    · next hsame =>
        subst hsame
        simp [hget]
    · rfl

/-- The table gets one pair at most, and one that is not in it. -/
theorem Complete.once_advance (hcomplete : Complete env calls state)
    (hmem : call ∈ state.calls)
    (hstep : Advances env state turn call phase after) :
    (Mapping.pairs after.rows).Nodup := by
  rcases hstep.rows with heq | ⟨pair, hinserts, heq⟩
  · rw [heq]
    exact hcomplete.once
  · rw [heq, List.nodup_append]
    refine ⟨hcomplete.once, List.nodup_singleton _, ?_⟩
    rintro written hwritten _ hpair rfl
    rw [List.mem_singleton.mp hpair] at hwritten
    exact hcomplete.fresh call hmem pair hinserts hwritten

/-- What the others are about to write is not what the call has written. -/
theorem Complete.fresh_other (hcomplete : Complete env calls state)
    (hcall : state.calls[turn.call]? = some call)
    (hstep : Advances env state turn call phase after)
    (hne : index ≠ turn.call) (hother : state.calls[index]? = some other)
    {pair : String × String} (hinserts : other.phase.inserts = some pair) :
    pair ∉ Mapping.pairs after.rows := by
  have hfresh : pair ∉ Mapping.pairs state.rows :=
    hcomplete.fresh other (List.mem_of_getElem? hother) pair hinserts
  rcases hstep.rows with heq | ⟨written, hwritten, heq⟩
  · rwa [heq]
  · rw [heq, List.mem_append, List.mem_singleton]
    rintro (hold | rfl)
    · exact hfresh hold
    · exact hne (hcomplete.single index turn.call other call pair hother hcall
        hinserts hwritten)

theorem complete_step (hkeys : ∀ pair ∈ calls, (chars pair.1).length = 64)
    (hcomplete : Complete env calls state)
    (hundisturbed : Undisturbed env state turn)
    (hstep : addStep env state turn = some after) :
    Complete env calls after := by
  unfold addStep at hstep
  cases hcall : state.calls[turn.call]? with
  | none => simp [hcall] at hstep
  | some call =>
  rw [hcall] at hstep
  obtain ⟨phase, hadvances⟩ := advance_cases hstep
  obtain ⟨hphase, hcalls⟩ := hadvances.calls
  have hmem : call ∈ state.calls := List.mem_of_getElem? hcall
  have hown : call.Undisturbed env state turn := hundisturbed call hcall
  have hlength {other : AddCall} (hother : other ∈ state.calls)
      {staged : StagedTerm}
      (hstaged : staged ∈ definedTerms env other.key other.value) :
      (chars staged.key).length = 64 := by
    rw [definedTerms_key hstaged]
    refine hkeys (other.key, other.value) ?_
    rw [← hcomplete.arguments]
    exact List.mem_map_of_mem hother
  refine ⟨?_, hcomplete.once_advance hmem hadvances, ?_, ?_, ?_⟩
  · have harguments : after.arguments =
        (state.setCall turn call phase).arguments := by
      rw [AddState.arguments, hcalls]
      rfl
    rw [harguments, arguments_setCall hcall, hcomplete.arguments]
  · intro other hother hcalled staged hstaged
    rw [hcalls] at hother
    obtain ⟨index, hindex⟩ := List.mem_iff_getElem?.mp hother
    rcases getElem?_setCall hcall hindex with ⟨rfl, rfl⟩ | ⟨-, hindex⟩
    · refine hadvances.kept_own hown (hlength hmem hstaged) hstaged ?_
      by_cases hnew : call.phase = .called
      · exact .inl hnew
      · exact .inr (hcomplete.kept call hmem hnew staged hstaged)
    · have hold : other ∈ state.calls := List.mem_of_getElem? hindex
      exact hadvances.kept_other hown hold hstaged
        (hcomplete.kept other hold hcalled staged hstaged)
  · intro other hother pair hinserts
    rw [hcalls] at hother
    obtain ⟨index, hindex⟩ := List.mem_iff_getElem?.mp hother
    rcases getElem?_setCall hcall hindex with ⟨rfl, rfl⟩ | ⟨hne, hindex⟩
    · exact (hadvances.inserts hown hinserts).1
    · exact hcomplete.fresh_other hcall hadvances hne hindex hinserts
  · intro first second one other pair hfirst hsecond hone hother
    rw [hcalls] at hfirst hsecond
    rcases getElem?_setCall hcall hfirst with ⟨rfl, rfl⟩ | ⟨-, hfirst⟩ <;>
      rcases getElem?_setCall hcall hsecond with ⟨rfl, rfl⟩ | ⟨-, hsecond⟩
    · rfl
    · exact absurd hother ((hadvances.inserts hown hone).2 other
        (List.mem_of_getElem? hsecond))
    · exact absurd hone ((hadvances.inserts hown hother).2 one
        (List.mem_of_getElem? hfirst))
    · exact hcomplete.single first second one other pair hfirst hsecond hone
        hother

theorem Kept.written_of_returned {staged : StagedTerm}
    (h : Kept state call staged) (hreturned : call.phase = .returned) :
    staged.pair ∈ Mapping.pairs state.rows := by
  cases h with
  | written h => exact h
  | copied h =>
      rw [hreturned] at h
      cases h
  | mapped _ hmutex =>
      rw [hreturned] at hmutex
      cases hmutex

/--
In every schedule of calls that have returned, the table has the pairs of all
their values and none twice, as long as no call looks a pair up that another is
about to write, or empties maps that another has yet to copy.
-/
theorem mappings_complete
    (hkeys : ∀ call ∈ state.calls, (chars call.key).length = 64)
    (hcalled : ∀ call ∈ state.calls, call.phase = .called)
    (honce : (Mapping.pairs state.rows).Nodup)
    (hmeets : AllMeet (addStep env) (Undisturbed env) state turns)
    (hrun : runFrom (addStep env) state turns = some final)
    (hreturned : ∀ call ∈ final.calls, call.phase = .returned) :
    (∀ call ∈ state.calls, ∀ staged ∈ definedTerms env call.key call.value,
        staged.pair ∈ Mapping.pairs final.rows) ∧
      (Mapping.pairs final.rows).Nodup := by
  have hlengths : ∀ pair ∈ state.arguments, (chars pair.1).length = 64 := by
    intro pair hpair
    obtain ⟨call, hcall, rfl⟩ := List.mem_map.mp hpair
    exact hkeys call hcall
  have hinserts {call : AddCall} (hcall : call ∈ state.calls)
      {pair : String × String} : call.phase.inserts ≠ some pair := by
    rw [hcalled call hcall]
    exact nofun
  have hstart : Complete env state.arguments state := by
    refine ⟨rfl, honce, fun call hcall h => absurd (hcalled call hcall) h,
      fun call hcall pair h => absurd h (hinserts hcall), ?_⟩
    intro first second call other pair hfirst _ h
    exact absurd h (hinserts (List.mem_of_getElem? hfirst))
  have hfinal := runFrom_invariant (Complete env state.arguments)
    (fun _ _ _ hcomplete => complete_step hlengths hcomplete) hmeets hrun hstart
  refine ⟨fun call hcall staged hstaged => ?_, hfinal.once⟩
  have hargument : (call.key, call.value) ∈ final.arguments := by
    rw [hfinal.arguments]
    exact List.mem_map_of_mem hcall
  obtain ⟨last, hlast, heq⟩ := List.mem_map.mp hargument
  rw [Prod.mk.injEq] at heq
  rw [← heq.1, ← heq.2] at hstaged
  have hphase : last.phase ≠ .called := by
    rw [hreturned last hlast]
    simp
  exact (hfinal.kept last hlast hphase staged hstaged).written_of_returned
    (hreturned last hlast)

end Schedules

/-! ## A call by itself -/

section Alone

variable {env : Externals} {moment : Moment} {mapper : KeyMapper}
  {rows : List Mapping} {key value : String}

def AddState.alone (mapper : KeyMapper) (rows : List Mapping)
    (key value : String) (phase : AddPhase) : AddState :=
  ⟨mapper, rows, [⟨key, value, phase⟩]⟩

def Leads (env : Externals) (state final : AddState) : Prop :=
  ∃ turns, runFrom (addStep env) state turns = some final

theorem Leads.refl (state : AddState) : Leads env state state := ⟨[], rfl⟩

theorem Leads.trans {state middle final : AddState}
    (hfirst : Leads env state middle) (hsecond : Leads env middle final) :
    Leads env state final := by
  obtain ⟨turns, hturns⟩ := hfirst
  obtain ⟨more, hmore⟩ := hsecond
  refine ⟨turns ++ more, ?_⟩
  rw [runFrom_append, hturns]
  exact hmore

theorem leads_of_step {state final : AddState} (turn : Turn)
    (h : addStep env state turn = some final) : Leads env state final :=
  ⟨[turn], by rw [runFrom_cons, h]; rfl⟩

theorem findsPair_iff {staged : StagedTerm} :
    (rows.any fun row =>
        row.searchTerm = staged.searchTerm ∧ row.key = staged.key) = true ↔
      staged.pair ∈ Mapping.pairs rows := by
  simp [Mapping.pairs, Mapping.pair, StagedTerm.pair]

theorem leads_write (moment : Moment) (copied : List StagedTerm)
    (rows : List Mapping) (mutexes : List MapMutex) :
    Leads env (.alone mapper rows key value (.syncing copied mutexes))
      (.alone mapper (copied.foldl (insertMapping moment) rows) key value
        (.syncing [] mutexes)) := by
  induction copied generalizing rows with
  | nil => exact .refl _
  | cons staged copied ih =>
      refine .trans ?_ (ih (insertMapping moment rows staged))
      by_cases hskip : (chars staged.key).length ≠ 64 ∨
          moment.executes .selectMapping ∧ staged.pair ∈ Mapping.pairs rows
      · have hrows : insertMapping moment rows staged = rows := by
          rcases hskip with hlength | hfound
          · rw [insertMapping, if_pos hlength]
          · simp only [insertMapping, findsPair_iff, if_pos hfound, ite_self]
        rw [hrows]
        exact leads_of_step ⟨0, [], moment.executes .selectMapping⟩
          (if_pos hskip)
      · have hrows : insertMapping moment rows staged =
            if moment.executes .insertMapping
            then rows ++ [⟨staged.searchTerm, staged.key, staged.map.content⟩]
            else rows := by
          rw [not_or] at hskip
          simp only [insertMapping, findsPair_iff, if_neg hskip.1,
            if_neg hskip.2]
        have hmiss : Leads env
            (.alone mapper rows key value (.syncing (staged :: copied) mutexes))
            (.alone mapper rows key value
              (.inserting staged copied mutexes)) :=
          leads_of_step ⟨0, [], moment.executes .selectMapping⟩ (if_neg hskip)
        rw [hrows]
        refine hmiss.trans ?_
        exact leads_of_step ⟨0, [], moment.executes .insertMapping⟩ rfl

/-- The maps under a mutex, one after the other. -/
def KeyMapper.read (mapper : KeyMapper) (mutex : MapMutex) : KeyMapper :=
  (termMaps.filter fun map => map.mutex = mutex).flatMap fun map =>
    mapper.filter fun staged => staged.map = map

theorem flatMap_read (mapper : KeyMapper) :
    (termMaps.flatMap fun map => mapper.filter fun staged => staged.map = map) =
      mapMutexes.flatMap mapper.read := by
  simp [termMaps, mapMutexes, KeyMapper.read, TermMap.mutex]

theorem mem_termMaps (map : TermMap) : map ∈ termMaps := by
  cases map <;> decide

/-- The maps of a mutex hold what is staged under it, sorted by map. -/
theorem read_perm (mapper : KeyMapper) (mutex : MapMutex) :
    (mapper.read mutex).Perm (mapper.copy mutex) := by
  have hread : mapper.read mutex =
      (termMaps.filter fun map => map.mutex = mutex).flatMap fun map =>
        (mapper.copy mutex).filter fun staged => staged.map = map := by
    refine List.flatMap_congr fun map hmap => ?_
    have hmutex : map.mutex = mutex := by
      simpa using (List.mem_filter.mp hmap).2
    rw [KeyMapper.copy, List.filter_filter]
    refine List.filter_congr fun staged _ => ?_
    by_cases hstaged : staged.map = map
    · simp [hstaged, hmutex]
    · simp [hstaged]
  have hnodup : termMaps.Nodup := by decide
  rw [hread]
  refine flatMap_filter_perm StagedTerm.map (hnodup.filter _)
    fun staged hstaged => List.mem_filter.mpr ⟨mem_termMaps _, ?_⟩
  exact (List.mem_filter.mp hstaged).2

theorem leads_sync (moment : Moment) (mutexes : List MapMutex)
    (rows : List Mapping) :
    Leads env (.alone mapper rows key value (.syncing [] mutexes))
      (.alone mapper ((mutexes.flatMap mapper.read).foldl
        (insertMapping moment) rows) key value (.syncing [] [])) := by
  induction mutexes generalizing rows with
  | nil => exact .refl _
  | cons mutex mutexes ih =>
      have hcopy : Leads env
          (.alone mapper rows key value (.syncing [] (mutex :: mutexes)))
          (.alone mapper rows key value
            (.syncing (mapper.read mutex) mutexes)) :=
        leads_of_step ⟨0, mapper.read mutex, true⟩
          (if_pos (read_perm mapper mutex))
      rw [List.flatMap_cons, List.foldl_append]
      exact (hcopy.trans (leads_write moment _ rows mutexes)).trans (ih _)

theorem leads_clear (mutexes : List MapMutex) (mapper : KeyMapper) :
    Leads env (.alone mapper rows key value (.clearing mutexes))
      (.alone (mutexes.foldl KeyMapper.clear mapper) rows key value
        (.clearing [])) := by
  induction mutexes generalizing mapper with
  | nil => exact .refl _
  | cons mutex mutexes ih =>
      have hclear : Leads env
          (.alone mapper rows key value (.clearing (mutex :: mutexes)))
          (.alone (mapper.clear mutex) rows key value (.clearing mutexes)) :=
        leads_of_step ⟨0, [], true⟩ rfl
      exact hclear.trans (ih _)

theorem clear_mapMutexes (mapper : KeyMapper) :
    mapMutexes.foldl KeyMapper.clear mapper = [] := by
  simp only [mapMutexes, List.foldl_cons, List.foldl_nil, KeyMapper.clear,
    List.filter_filter, List.filter_eq_nil_iff]
  intro staged _
  cases staged.map.mutex <;> simp

theorem add_eq (env : Externals) (moment : Moment) (mapper : KeyMapper)
    (rows : List Mapping) (key value : String) :
    KeyMapper.add env moment mapper rows key value =
      match env.parse value with
      | .error .parseError => .ok (mapper, rows)
      | .error .outOfRange => .error .outOfRange
      | .ok json => (stagedTerms json key).map fun staged =>
          ([], KeyMapper.sync moment (mapper ++ staged) rows) := by
  unfold KeyMapper.add
  cases env.parse value with
  | error error => cases error <;> rfl
  | ok json =>
      simp only [stagedTerms, bind, Except.bind, Except.map, pure, Except.pure]
      cases json.index "metadata" with
      | error fault => rfl
      | ok member => cases hstring : member.getString <;> simp [hstring]

/-- A call that no other interrupts does what `KeyMapper.add` says. -/
theorem add_alone {last : KeyMapper} {written : List Mapping}
    (h : KeyMapper.add env moment mapper rows key value = .ok (last, written)) :
    Leads env (.alone mapper rows key value .called)
      (.alone last written key value .returned) := by
  rw [add_eq] at h
  cases hparse : env.parse value with
  | error error =>
      cases error with
      | outOfRange => simp [hparse] at h
      | parseError =>
          simp only [hparse, Except.ok.injEq, Prod.mk.injEq] at h
          obtain ⟨rfl, rfl⟩ := h
          refine leads_of_step ⟨0, [], true⟩ ?_
          change (match env.parse value with
            | .error .parseError => _
            | .error .outOfRange => _
            | .ok _ => _) = _
          rw [hparse]
          rfl
  | ok json =>
      cases hterms : stagedTerms json key with
      | error fault => simp [hparse, hterms, Except.map] at h
      | ok staged =>
          simp only [hparse, hterms, Except.map, Except.ok.injEq,
            Prod.mk.injEq] at h
          obtain ⟨rfl, rfl⟩ := h
          have hstage : Leads env (.alone mapper rows key value .called)
              (.alone (mapper ++ staged) rows key value
                (.syncing [] mapMutexes)) := by
            refine leads_of_step ⟨0, [], true⟩ ?_
            change (match env.parse value with
              | .error .parseError => _
              | .error .outOfRange => _
              | .ok json => match stagedTerms json key with
                | .error _ => _
                | .ok _ => _) = _
            rw [hparse]
            dsimp only
            rw [hterms]
            rfl
          have hsync : Leads env
              (.alone (mapper ++ staged) rows key value (.syncing [] mapMutexes))
              (.alone (mapper ++ staged)
                (KeyMapper.sync moment (mapper ++ staged) rows) key value
                (.syncing [] [])) := by
            rw [KeyMapper.sync, flatMap_read]
            exact leads_sync moment mapMutexes rows
          have hclear : Leads env
              (.alone (mapper ++ staged)
                (KeyMapper.sync moment (mapper ++ staged) rows) key value
                (.clearing mapMutexes))
              (.alone [] (KeyMapper.sync moment (mapper ++ staged) rows) key
                value (.clearing [])) := by
            have hempty := clear_mapMutexes (mapper ++ staged)
            rw [← hempty]
            exact leads_clear mapMutexes (mapper ++ staged)
          refine (hstage.trans hsync).trans (.trans ?_ (hclear.trans ?_))
          · exact leads_of_step ⟨0, [], true⟩ rfl
          · exact leads_of_step ⟨0, [], true⟩ rfl

end Alone

/-! ## Two ratings that are added at once -/

def otherRatingKey : String :=
  "3c5e7a9b1d2f4068a8c6e4b2d0f1938576a4b2c0d1e3f5978b9a0c1d2e3f4a5b"

def addStart : AddState where
  mapper := []
  rows := []
  calls :=
    [⟨ratingKey, ratingText sellerId firstSignature, .called⟩,
      ⟨otherRatingKey, ratingText otherSellerId secondSignature, .called⟩]

def sellerTerm : StagedTerm := ⟨.sellerRatings, sellerId, ratingKey⟩

def otherSellerTerm : StagedTerm :=
  ⟨.sellerRatings, otherSellerId, otherRatingKey⟩

def turnOf (call : Nat) : Turn := ⟨call, [], true⟩

/-- A call from its first copy up to the point where it empties the maps. -/
def syncTurns (call : Nat) (order : List StagedTerm) : List Turn :=
  List.replicate 4 (turnOf call) ++ [⟨call, order, true⟩] ++
    List.replicate (2 * order.length + 2) (turnOf call)

def clearTurns (call : Nat) : List Turn := List.replicate 7 (turnOf call)

/-- The second call stages its term when the first has copied the maps. -/
def losingTurns : List Turn :=
  turnOf 0 :: syncTurns 0 [sellerTerm] ++ turnOf 1 :: clearTurns 0 ++
    syncTurns 1 [] ++ clearTurns 1

/-- Each call has looked the first term up before the other writes it. -/
def repeatingTurns : List Turn :=
  [turnOf 0, turnOf 1] ++
    List.replicate 4 (turnOf 0) ++ [⟨0, [sellerTerm, otherSellerTerm], true⟩] ++
    List.replicate 4 (turnOf 1) ++ [⟨1, [sellerTerm, otherSellerTerm], true⟩] ++
    [turnOf 0, turnOf 1] ++ List.replicate 5 (turnOf 0) ++ clearTurns 0 ++
    List.replicate 4 (turnOf 1) ++ clearTurns 1

def addReturned (pairs : List (String × String)) : AddState where
  mapper := []
  rows := pairs.map fun pair => ⟨pair.1, pair.2, "seller_rating"⟩
  calls := addStart.calls.map fun call => { call with phase := .returned }

theorem add_spoils :
    (∀ call ∈ addStart.calls, (chars call.key).length = 64) ∧
      sellerTerm ∈ definedTerms ratingExternals ratingKey
        (ratingText sellerId firstSignature) ∧
      otherSellerTerm ∈ definedTerms ratingExternals otherRatingKey
        (ratingText otherSellerId secondSignature) ∧
      runFrom (addStep ratingExternals) addStart losingTurns =
        some (addReturned [sellerTerm.pair]) ∧
      otherSellerTerm.pair ∉
        Mapping.pairs (addReturned [sellerTerm.pair]).rows ∧
      runFrom (addStep ratingExternals) addStart repeatingTurns =
        some (addReturned [sellerTerm.pair, otherSellerTerm.pair,
          sellerTerm.pair]) ∧
      ¬ (Mapping.pairs (addReturned [sellerTerm.pair, otherSellerTerm.pair,
        sellerTerm.pair]).rows).Nodup := by
  decide +kernel

/-- Both calls stage their terms; the first writes them, and empties the maps
when the second has copied them. -/
def overlappingTurns : List Turn :=
  [turnOf 0, turnOf 1] ++
    List.replicate 4 (turnOf 0) ++ [⟨0, [sellerTerm, otherSellerTerm], true⟩] ++
    List.replicate 4 (turnOf 0) ++
    List.replicate 4 (turnOf 1) ++ [⟨1, [otherSellerTerm, sellerTerm], true⟩] ++
    List.replicate 2 (turnOf 0) ++ List.replicate 2 (turnOf 1) ++ clearTurns 0 ++
    List.replicate 2 (turnOf 1) ++ clearTurns 1

theorem mappings_complete_overlapping :
    (∀ call ∈ addStart.calls,
        ∀ staged ∈ definedTerms ratingExternals call.key call.value,
          staged.pair ∈ Mapping.pairs
            (addReturned [sellerTerm.pair, otherSellerTerm.pair]).rows) ∧
      (Mapping.pairs (addReturned
        [sellerTerm.pair, otherSellerTerm.pair]).rows).Nodup := by
  have hrun : runFrom (addStep ratingExternals) addStart overlappingTurns =
      some (addReturned [sellerTerm.pair, otherSellerTerm.pair]) := by
    decide +kernel
  exact mappings_complete (by decide) (by decide)
    (by decide +kernel) (by decide +kernel) hrun (by decide +kernel)

end Neroshop.Node
