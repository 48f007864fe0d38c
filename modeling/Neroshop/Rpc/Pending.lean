import Mathlib.Tactic.Ring
import Neroshop.Foundation.Transition

/-!
# Pending requests

Every request of a node puts a promise into one map under its transaction id,
waits for the reply handler to fulfil it, and erases the entry when sending
fails or the wait times out.  The steps below are those between which another
thread can run.  A reply may arrive in any order, late, or more than once.
-/

namespace Neroshop.Rpc

open Neroshop.Foundation

def hexDigit (n : Nat) : Char :=
  if n < 10 then Char.ofNat (48 + n) else Char.ofNat (87 + n)

def hexByte (byte : Nat) : List Char := [hexDigit (byte / 16), hexDigit (byte % 16)]

def tidBytes (draw : UInt32) : List Nat :=
  [draw.toNat / 2 ^ 24 % 256, draw.toNat / 2 ^ 16 % 256,
    draw.toNat / 2 ^ 8 % 256, draw.toNat % 256]

/-- Eight digits are written, and the first four of them taken. -/
def generateTransactionId (draw : UInt32) : String :=
  String.ofList (((tidBytes draw).flatMap hexByte).take 4)

theorem hexDigit_inj {n m : Nat} (hn : n < 16) (hm : m < 16)
    (h : hexDigit n = hexDigit m) : n = m := by
  have hall : ∀ n m : Fin 16, hexDigit n = hexDigit m → n = m := by
    decide
  exact Fin.mk.inj (hall ⟨n, hn⟩ ⟨m, hm⟩ h)

/-- Only the high half of a draw is in the id. -/
theorem generateTransactionId_eq_iff {first second : UInt32} :
    generateTransactionId first = generateTransactionId second ↔
      first.toNat / 2 ^ 16 = second.toNat / 2 ^ 16 := by
  have hfirst := first.toNat_lt
  have hsecond := second.toNat_lt
  simp only [generateTransactionId, tidBytes, hexByte, List.flatMap_cons,
    List.cons_append, List.nil_append, List.take_succ_cons, List.take_zero,
    String.ofList_inj, List.cons.injEq, and_true]
  constructor
  · rintro ⟨h1, h2, h3, h4⟩
    have h1 := hexDigit_inj (by omega) (by omega) h1
    have h2 := hexDigit_inj (by omega) (by omega) h2
    have h3 := hexDigit_inj (by omega) (by omega) h3
    have h4 := hexDigit_inj (by omega) (by omega) h4
    omega
  · intro h
    have hhigh : first.toNat / 2 ^ 24 = second.toNat / 2 ^ 24 := by omega
    rw [h, hhigh]
    exact ⟨rfl, rfl, rfl, rfl⟩

inductive Phase where
  | unregistered
  | waiting
  /-- Sending failed or the wait timed out; the entry is still to be erased. -/
  | gaveUp
  | completed
  | broken
  | closed
  deriving DecidableEq, Repr

structure State where
  registered : Nat
  tid : Nat → String
  phase : Nat → Phase
  /-- `pending_requests`: whose promise is stored under a transaction id. -/
  pendingRequests : String → Option Nat
  /-- Copies of the request or of its reply are still under way. -/
  inFlight : Nat → Bool
  /-- The requests whose replies have fulfilled the promise. -/
  completions : Nat → List Nat

namespace State

def start : State :=
  ⟨0, fun _ => "", fun _ => .unregistered, fun _ => none, fun _ => false,
    fun _ => []⟩

/-- Destroying an unfulfilled promise breaks it for a requester that waits. -/
def dropPromise (state : State) (tid : String) : State :=
  { state with
    pendingRequests := Function.update state.pendingRequests tid none
    phase := match state.pendingRequests tid with
      | some request =>
          if state.phase request = .waiting
          then Function.update state.phase request .broken else state.phase
      | none => state.phase }

/-- `pending_requests[transaction_id] = std::move(promise)`. -/
def registerRequest (state : State) (tid : String) : State :=
  let dropped := state.dropPromise tid
  { dropped with
    registered := state.registered + 1
    tid := Function.update state.tid state.registered tid
    phase := Function.update dropped.phase state.registered .waiting
    pendingRequests :=
      Function.update dropped.pendingRequests tid (some state.registered) }

def setPhase (state : State) (request : Nat) (phase : Phase) : State :=
  { state with phase := Function.update state.phase request phase }

/-- `set_value` on a promise in the map, whose entry is then erased. -/
def fulfil (state : State) (request reply : Nat) : State :=
  { state with
    pendingRequests :=
      Function.update state.pendingRequests (state.tid reply) none
    phase := if state.phase request = .waiting
      then Function.update state.phase request .completed else state.phase
    completions := Function.update state.completions request
      (state.completions request ++ [reply]) }

/-- The handler looks the reply's transaction id up in the map. -/
def handleReply (state : State) (reply : Nat) : State :=
  match state.pendingRequests (state.tid reply) with
  | some request => state.fulfil request reply
  | none => state

end State

inductive Event where
  | register (draw : UInt32)
  | send (request : Nat)
  | sendFails (request : Nat)
  | timeOut (request : Nat)
  /-- `pending_requests.erase(transaction_id)` of a requester that gave up. -/
  | erase (request : Nat)
  | receive (reply : Nat)
  /-- No copy of the request or its reply is under way any more. -/
  | settle (request : Nat)

def step (state : State) : Event → Option State
  | .register draw => some (state.registerRequest (generateTransactionId draw))
  | .send request =>
      if state.phase request = .waiting then
        some { state with
          inFlight := Function.update state.inFlight request true }
      else none
  | .sendFails request | .timeOut request =>
      if state.phase request = .waiting
      then some (state.setPhase request .gaveUp) else none
  | .erase request =>
      if state.phase request = .gaveUp then
        some ((state.dropPromise (state.tid request)).setPhase request .closed)
      else none
  | .receive reply =>
      if state.inFlight reply then some (state.handleReply reply) else none
  | .settle request =>
      some { state with
        inFlight := Function.update state.inFlight request false }

/-- The request can still touch the map under its transaction id. -/
def Live (state : State) (request : Nat) : Prop :=
  state.phase request = .waiting ∨ state.phase request = .gaveUp ∨
    state.inFlight request = true

/-- A request registers under an id that no other request can still touch. -/
def Unused (state : State) : Event → Prop
  | .register draw => ∀ request, Live state request →
      state.tid request ≠ generateTransactionId draw
  | _ => True

structure Matched (state : State) : Prop where
  /-- A promise belongs to a request that has not finished. -/
  pending : ∀ tid request, state.pendingRequests tid = some request →
    state.tid request = tid ∧ state.completions request = [] ∧
      (state.phase request = .waiting ∨ state.phase request = .gaveUp)
  waiting : ∀ request, state.phase request = .waiting →
    state.pendingRequests (state.tid request) = some request
  distinct : ∀ first second, Live state first → Live state second →
    state.tid first = state.tid second → first = second
  unregistered : ∀ request, state.registered ≤ request →
    state.phase request = .unregistered ∧ state.inFlight request = false ∧
      state.completions request = []
  completions : ∀ request, state.completions request = [] ∨
    state.completions request = [request]
  completed : ∀ request, state.phase request = .completed →
    state.completions request = [request]
  unbroken : ∀ request, state.phase request ≠ .broken

section Steps

variable {state next : State} {request : Nat} {tid : String}

theorem Matched.live_of_pending (h : Matched state)
    (hpending : state.pendingRequests tid = some request) :
    Live state request := by
  rcases (h.pending tid request hpending).2.2 with hphase | hphase
  · exact .inl hphase
  · exact .inr (.inl hphase)

theorem Matched.not_live (h : Matched state)
    (hle : state.registered ≤ request) : ¬ Live state request := by
  obtain ⟨hphase, hflight, -⟩ := h.unregistered request hle
  simp [Live, hphase, hflight]

theorem Matched.ne_of_le (h : Matched state) (hlive : Live state request)
    {other : Nat} (hle : state.registered ≤ other) : other ≠ request := by
  rintro rfl
  exact h.not_live hle hlive

theorem Matched.own_promise (h : Matched state) (hlive : Live state request)
    {other : Nat}
    (hother : state.pendingRequests (state.tid request) = some other) :
    other = request :=
  h.distinct other request (h.live_of_pending hother) hlive
    (h.pending _ other hother).1

theorem dropPromise_of_none (h : state.pendingRequests tid = none) :
    state.dropPromise tid = state := by
  have hsame : Function.update state.pendingRequests tid none =
      state.pendingRequests := by
    rw [Function.update_eq_self_iff, h]
  rw [State.dropPromise, hsame, h]

theorem Matched.register (h : Matched state)
    (hunused : ∀ request, Live state request → state.tid request ≠ tid) :
    Matched (state.registerRequest tid) := by
  have hnone : state.pendingRequests tid = none := by
    cases hpending : state.pendingRequests tid with
    | none => rfl
    | some request =>
        exact absurd (h.pending tid request hpending).1
          (hunused request (h.live_of_pending hpending))
  have hnew := h.unregistered state.registered (Nat.le_refl _)
  have hold {request : Nat} (hlive : Live state request) :
      request ≠ state.registered :=
    (h.ne_of_le hlive (Nat.le_refl _)).symm
  have hcases {request : Nat}
      (hlive : Live (state.registerRequest tid) request) :
      request = state.registered ∨ Live state request := by
    by_cases hnewest : request = state.registered
    · exact .inl hnewest
    · right
      simpa [Live, State.registerRequest, dropPromise_of_none hnone,
        hnewest] using hlive
  constructor
  · intro other request hpending
    simp only [State.registerRequest, dropPromise_of_none hnone,
      Function.update_apply] at hpending ⊢
    split at hpending
    · next heq =>
        cases hpending
        simp [heq, hnew.2.2]
    · have hne := hold (h.live_of_pending hpending)
      simpa [hne] using h.pending other request hpending
  · intro request hphase
    simp only [State.registerRequest, dropPromise_of_none hnone,
      Function.update_apply] at hphase ⊢
    split at hphase
    · next heq => simp [heq]
    · next hne =>
        have hlive : Live state request := .inl hphase
        simpa [hne, hunused request hlive] using h.waiting request hphase
  · intro first second hfirst hsecond hsame
    have htid {request : Nat} (hne : request ≠ state.registered) :
        (state.registerRequest tid).tid request = state.tid request := by
      simp [State.registerRequest, hne]
    have hnewest : (state.registerRequest tid).tid state.registered = tid := by
      simp [State.registerRequest]
    rcases hcases hfirst with rfl | hfirst <;>
      rcases hcases hsecond with rfl | hsecond
    · rfl
    · rw [hnewest, htid (hold hsecond)] at hsame
      exact absurd hsame.symm (hunused second hsecond)
    · rw [hnewest, htid (hold hfirst)] at hsame
      exact absurd hsame (hunused first hfirst)
    · rw [htid (hold hfirst), htid (hold hsecond)] at hsame
      exact h.distinct first second hfirst hsecond hsame
  · intro request hle
    have hle' : state.registered + 1 ≤ request := hle
    have hne : request ≠ state.registered := by omega
    simpa [State.registerRequest, dropPromise_of_none hnone, hne] using
      h.unregistered request (by omega)
  · exact h.completions
  · intro request hphase
    simp only [State.registerRequest, dropPromise_of_none hnone,
      Function.update_apply] at hphase
    split at hphase
    · cases hphase
    · exact h.completed request hphase
  · intro request hphase
    simp only [State.registerRequest, dropPromise_of_none hnone,
      Function.update_apply] at hphase
    split at hphase
    · cases hphase
    · exact h.unbroken request hphase

theorem Matched.setInFlight (h : Matched state) {inFlight : Bool}
    (hlive : inFlight = true → state.phase request = .waiting) :
    Matched { state with
      inFlight := Function.update state.inFlight request inFlight } := by
  have hcases {other : Nat}
      (hother : Live { state with
        inFlight := Function.update state.inFlight request inFlight } other) :
      Live state other := by
    rcases hother with hphase | hphase | hflight
    · exact .inl hphase
    · exact .inr (.inl hphase)
    · simp only [Function.update_apply] at hflight
      split at hflight
      · next heq => exact .inl (heq ▸ hlive hflight)
      · exact .inr (.inr hflight)
  refine { h with distinct := ?_, unregistered := ?_ }
  · exact fun first second hfirst hsecond =>
      h.distinct first second (hcases hfirst) (hcases hsecond)
  · intro other hle
    obtain ⟨hphase, hflight, hcompletions⟩ := h.unregistered other hle
    refine ⟨hphase, ?_, hcompletions⟩
    cases hnew : Function.update state.inFlight request inFlight other with
    | false => exact hnew
    | true => exact absurd (hcases (.inr (.inr hnew))) (h.not_live hle)

theorem Matched.giveUp (h : Matched state)
    (hwaiting : state.phase request = .waiting) :
    Matched (state.setPhase request .gaveUp) := by
  have hcases {other : Nat} (hother : Live (state.setPhase request .gaveUp) other) :
      Live state other := by
    by_cases heq : other = request
    · exact .inl (heq ▸ hwaiting)
    · simpa [Live, State.setPhase, heq] using hother
  have hphase {other : Nat} {phase : Phase} (hne : phase ≠ .gaveUp)
      (hother : (state.setPhase request .gaveUp).phase other = phase) :
      state.phase other = phase := by
    simp only [State.setPhase, Function.update_apply] at hother
    split at hother
    · exact absurd hother.symm hne
    · exact hother
  constructor
  · intro tid other hpending
    obtain ⟨htid, hcompletions, hcase⟩ := h.pending tid other hpending
    refine ⟨htid, hcompletions, ?_⟩
    simp only [State.setPhase, Function.update_apply]
    split
    · exact .inr rfl
    · exact hcase
  · exact fun other hother => h.waiting other (hphase (by decide) hother)
  · exact fun first second hfirst hsecond =>
      h.distinct first second (hcases hfirst) (hcases hsecond)
  · intro other hle
    have hne := h.ne_of_le (.inl hwaiting) hle
    simpa [State.setPhase, hne] using h.unregistered other hle
  · exact h.completions
  · exact fun other hother => h.completed other (hphase (by decide) hother)
  · exact fun other hother => h.unbroken other (hphase (by decide) hother)

theorem Matched.erase (h : Matched state)
    (hgaveUp : state.phase request = .gaveUp) :
    Matched ((state.dropPromise (state.tid request)).setPhase request
      .closed) := by
  have hlive : Live state request := .inr (.inl hgaveUp)
  have hphases : (state.dropPromise (state.tid request)).phase =
      state.phase := by
    simp only [State.dropPromise]
    split
    · next other hother =>
        rw [h.own_promise hlive hother, hgaveUp]
        rfl
    · rfl
  have hphase {other : Nat} {phase : Phase} (hne : phase ≠ .closed)
      (hother : ((state.dropPromise (state.tid request)).setPhase request
        .closed).phase other = phase) :
      other ≠ request ∧ state.phase other = phase := by
    simp only [State.setPhase, hphases, Function.update_apply] at hother
    split at hother
    · exact absurd hother.symm hne
    · next hdifferent => exact ⟨hdifferent, hother⟩
  have hcases {other : Nat}
      (hother : Live ((state.dropPromise (state.tid request)).setPhase request
        .closed) other) : Live state other := by
    rcases hother with hother | hother | hflight
    · exact .inl (hphase (by decide) hother).2
    · exact .inr (.inl (hphase (by decide) hother).2)
    · exact .inr (.inr hflight)
  constructor
  · intro tid other hpending
    simp only [State.setPhase, State.dropPromise, Function.update_apply]
      at hpending
    split at hpending
    · cases hpending
    · next hdifferent =>
        obtain ⟨htid, hcompletions, hcase⟩ := h.pending tid other hpending
        have hne : other ≠ request := fun heq =>
          hdifferent (heq ▸ htid.symm)
        refine ⟨htid, hcompletions, ?_⟩
        simpa [State.setPhase, hphases, hne] using hcase
  · intro other hother
    obtain ⟨hne, hwaiting⟩ := hphase (by decide) hother
    have hdifferent : state.tid other ≠ state.tid request := fun hsame =>
      hne (h.distinct other request (.inl hwaiting) hlive hsame)
    simpa [State.setPhase, State.dropPromise, hdifferent] using
      h.waiting other hwaiting
  · exact fun first second hfirst hsecond =>
      h.distinct first second (hcases hfirst) (hcases hsecond)
  · intro other hle
    have hne := h.ne_of_le hlive hle
    have hunregistered := h.unregistered other hle
    refine ⟨?_, hunregistered.2⟩
    simpa [State.setPhase, hphases, hne] using hunregistered.1
  · exact h.completions
  · exact fun other hother =>
      h.completed other (hphase (by decide) hother).2
  · exact fun other hother => h.unbroken other (hphase (by decide) hother).2

theorem fulfil_phase_of_ne {other reply : Nat} (hne : other ≠ request) :
    (state.fulfil request reply).phase other = state.phase other := by
  rw [State.fulfil]
  dsimp only
  split <;> simp [hne]

theorem fulfil_phase_self (reply : Nat) :
    (state.fulfil request reply).phase request ≠ .waiting := by
  rw [State.fulfil]
  dsimp only
  split
  · simp
  · assumption

theorem Matched.fulfil (h : Matched state) (hlive : Live state request)
    (hpending : state.pendingRequests (state.tid request) = some request) :
    Matched (state.fulfil request request) := by
  obtain ⟨-, hnone, hphase⟩ := h.pending _ request hpending
  have hcases {other : Nat} (hother : Live (state.fulfil request request) other) :
      Live state other := by
    by_cases heq : other = request
    · exact heq ▸ hlive
    · rw [Live, fulfil_phase_of_ne heq] at hother
      exact hother
  have hcompletions {other : Nat} (hne : other ≠ request) :
      (state.fulfil request request).completions other =
        state.completions other := by
    simp [State.fulfil, hne]
  have hself : (state.fulfil request request).completions request =
      [request] := by
    simp [State.fulfil, hnone]
  constructor
  · intro tid other hother
    simp only [State.fulfil, Function.update_apply] at hother
    split at hother
    · cases hother
    · next hdifferent =>
        have hold := h.pending tid other hother
        have hne : other ≠ request := fun heq =>
          hdifferent (heq ▸ hold.1.symm)
        rwa [fulfil_phase_of_ne hne, hcompletions hne]
  · intro other hwaiting
    have hne : other ≠ request := by
      rintro rfl
      exact fulfil_phase_self _ hwaiting
    rw [fulfil_phase_of_ne hne] at hwaiting
    have hdifferent : state.tid other ≠ state.tid request := fun hsame =>
      hne (h.distinct other request (.inl hwaiting) hlive hsame)
    simpa [State.fulfil, hdifferent] using h.waiting other hwaiting
  · exact fun first second hfirst hsecond =>
      h.distinct first second (hcases hfirst) (hcases hsecond)
  · intro other hle
    have hne := h.ne_of_le hlive hle
    rw [fulfil_phase_of_ne hne, hcompletions hne]
    exact h.unregistered other hle
  · intro other
    by_cases heq : other = request
    · exact .inr (heq ▸ hself)
    · rw [hcompletions heq]
      exact h.completions other
  · intro other hcompleted
    by_cases heq : other = request
    · exact heq ▸ hself
    · rw [fulfil_phase_of_ne heq] at hcompleted
      rw [hcompletions heq]
      exact h.completed other hcompleted
  · intro other hbroken
    by_cases heq : other = request
    · subst heq
      simp only [State.fulfil] at hbroken
      split at hbroken
      · simp at hbroken
      · exact h.unbroken other hbroken
    · rw [fulfil_phase_of_ne heq] at hbroken
      exact h.unbroken other hbroken

theorem Matched.receive (h : Matched state)
    (hflight : state.inFlight request = true) :
    Matched (state.handleReply request) := by
  have hlive : Live state request := .inr (.inr hflight)
  rw [State.handleReply]
  split
  · next found hfound =>
      have hown := h.own_promise hlive hfound
      subst hown
      exact h.fulfil hlive hfound
  · exact h

theorem matched_start : Matched State.start := by
  constructor <;> simp [State.start, Live]

/-- The step rule: a step that registers under unused ids only. -/
theorem matched_step (event : Event) (h : Matched state)
    (hmeets : Unused state event) (hstep : step state event = some next) :
    Matched next := by
  cases event with
  | register draw =>
      cases hstep
      exact h.register hmeets
  | send request =>
      simp only [step] at hstep
      split at hstep
      · next hwaiting =>
          cases hstep
          exact h.setInFlight fun _ => hwaiting
      · cases hstep
  | sendFails request =>
      simp only [step] at hstep
      split at hstep
      · next hwaiting =>
          cases hstep
          exact h.giveUp hwaiting
      · cases hstep
  | timeOut request =>
      simp only [step] at hstep
      split at hstep
      · next hwaiting =>
          cases hstep
          exact h.giveUp hwaiting
      · cases hstep
  | erase request =>
      simp only [step] at hstep
      split at hstep
      · next hgaveUp =>
          cases hstep
          exact h.erase hgaveUp
      · cases hstep
  | receive reply =>
      simp only [step] at hstep
      split at hstep
      · next hflight =>
          cases hstep
          exact h.receive hflight
      · cases hstep
  | settle request =>
      cases hstep
      exact h.setInFlight (by simp)

/--
In every run in which requests register under unused ids, no future ends in
`broken_promise`, and a promise is fulfilled at most once and by a reply to its
own request; a completed request has had its reply.
-/
theorem requests_matched {final : State} {events : List Event}
    (hmeets : AllMeet step Unused State.start events)
    (hrun : runFrom step State.start events = some final) (request : Nat) :
    final.phase request ≠ .broken ∧
      (final.completions request = [] ∨
        final.completions request = [request]) ∧
      (final.phase request = .completed →
        final.completions request = [request]) := by
  have hmatched := runFrom_invariant Matched
    (fun _ event _ h hmeets hstep => matched_step event h hmeets hstep)
    hmeets hrun matched_start
  exact ⟨hmatched.unbroken request, hmatched.completions request,
    hmatched.completed request⟩

end Steps

/-! ## Two draws with the same high digits -/

/--
The second request takes the id of the first, whose future breaks; after a
timeout of the first, a late reply to it completes the second.
-/
theorem request_broken :
    (runFrom step State.start [.register 0x5eed0000, .register 0x5eedffff]).map
      (fun state => state.phase 0) = some .broken ∧
    (runFrom step State.start
      [.register 0x5eed0000, .send 0, .timeOut 0, .erase 0,
        .register 0x5eedffff, .send 1, .receive 0]).map
      (fun state => (state.phase 1, state.completions 1)) =
    some (.completed, [0]) := by
  decide

def repliedRun : List Event :=
  [.register 0x5eed0000, .send 0, .receive 0, .receive 0]

def repliedState : State :=
  (runFrom step State.start repliedRun).getD State.start

theorem runFrom_repliedRun :
    runFrom step State.start repliedRun = some repliedState := by
  have hsome : (runFrom step State.start repliedRun).isSome = true := by
    decide
  exact (Option.getD_of_ne_none (Option.isSome_iff_ne_none.mp hsome) _).symm

theorem unused_repliedRun :
    AllMeet step Unused State.start repliedRun := by
  refine ⟨fun request hlive => ?_, fun _ _ => ⟨trivial, fun _ _ => ⟨trivial,
    fun _ _ => ⟨trivial, fun _ _ => trivial⟩⟩⟩⟩
  simp [Live, State.start] at hlive

theorem requests_matched_repliedRun :
    repliedState.phase 0 ≠ .broken ∧
      (repliedState.completions 0 = [] ∨ repliedState.completions 0 = [0]) ∧
      (repliedState.phase 0 = .completed → repliedState.completions 0 = [0]) :=
  requests_matched unused_repliedRun runFrom_repliedRun 0

end Neroshop.Rpc
