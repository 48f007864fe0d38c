import Neroshop.Fetch
import Neroshop.Rpc.Client

/-!
# Going through the keys of a search term

The readers of the graphical client and the rating calls of a user select the
keys of a search term from `mappings` and get the value of each from the node.
A key that the node answers with an error is removed there.
-/

namespace Neroshop.Rpc

open Neroshop.Foundation Neroshop.Node

inductive Lookup where
  /-- No reply, or none that can be parsed. -/
  | unreadable
  /-- The reply is an error. -/
  | missing
  /-- The response has no value. -/
  | valueless
  | found (value : String)
  deriving DecidableEq, Repr

/-- The calls that the client has made, in order. -/
abbrev Session := EStateM Fault (List ClientCall)

def send (call : ClientCall) : Session Unit := modify (· ++ [call])

/-- `SELECT DISTINCT key FROM mappings`, where the content and the term match. -/
def selectKeys (mappings : List Mapping) (content : String)
    (searchTerm : Option String) : List String :=
  ((mappings.filter fun row =>
      row.content = content ∧ searchTerm.all (· = row.searchTerm)).map
    Mapping.key).eraseDups

theorem nodup_eraseDups (keys : List String) : keys.eraseDups.Nodup := by
  induction hlength : keys.length using Nat.strong_induction_on
    generalizing keys with
  | _ length ih =>
      cases keys with
      | nil => simp
      | cons key keys =>
          rw [List.eraseDups_cons, List.nodup_cons]
          refine ⟨by simp [List.mem_eraseDups], ?_⟩
          apply ih _ ?_ _ rfl
          rw [← hlength, List.length_cons]
          exact Nat.lt_succ_of_le (List.length_filter_le _ _)

theorem nodup_selectKeys (mappings : List Mapping) (content : String)
    (searchTerm : Option String) :
    (selectKeys mappings content searchTerm).Nodup :=
  nodup_eraseDups _

section Rows

variable {Row : Type}

theorem countP_le_one {keys : List String} (hnodup : keys.Nodup)
    {test : String → Bool}
    (hunique : ∀ key ∈ keys, ∀ other ∈ keys, test key = true →
      test other = true → key = other) : keys.countP test ≤ 1 := by
  induction keys with
  | nil => simp
  | cons key keys ih =>
      obtain ⟨hfresh, hrest⟩ := List.nodup_cons.mp hnodup
      rw [List.countP_cons]
      by_cases hkey : test key = true
      · have hzero : keys.countP test = 0 := by
          rw [List.countP_eq_zero]
          intro other hother htest
          have hequal := hunique key (by simp) other (by simp [hother]) hkey
            htest
          exact hfresh (hequal ▸ hother)
        simp [hzero, hkey]
      · rw [if_neg hkey, Nat.add_zero]
        apply ih hrest
        intro first hfirst second hsecond
        exact hunique first (by simp [hfirst]) second (by simp [hsecond])

/-- Rows that a test accepts are made of one key at most, so there is one. -/
theorem countP_filterMap_le_one {keys : List String} (hnodup : keys.Nodup)
    {rowOf : String → Option Row} {test : Row → Bool}
    (hunique : ∀ key ∈ keys, ∀ other ∈ keys, ∀ row otherRow,
      rowOf key = some row → test row = true →
      rowOf other = some otherRow → test otherRow = true → key = other) :
    (keys.filterMap rowOf).countP test ≤ 1 := by
  rw [List.countP_filterMap]
  apply countP_le_one hnodup
  intro key hkey other hother hfirst hsecond
  cases hrow : rowOf key with
  | none => simp [hrow] at hfirst
  | some row =>
  cases hotherRow : rowOf other with
  | none => simp [hotherRow] at hsecond
  | some otherRow =>
      apply hunique key hkey other hother row otherRow hrow ?_ hotherRow
      · simpa [hotherRow] using hsecond
      · simpa [hrow] using hfirst

/-- `json::parse`, the assertion and the check of the kind. -/
def readDocument (env : Externals) (kind : String)
    (read : Json → Except Fault (Option Row)) (value : String) :
    Except Fault (Option Row) := do
  let json ← env.parseOrThrow value
  assertThat json.isObject
  let metadata ← fetchString json "metadata"
  if metadata ≠ kind then return none
  read json

/--
A row for every value that `read` keeps; a response without a value leaves an
object without members.
-/
def readKeys (lookup : String → Lookup) (blank : Row)
    (read : String → String → Except Fault (Option Row)) :
    List String → Session (List Row)
  | [] => pure []
  | key :: keys =>
      if key = "NULL" then readKeys lookup blank read keys
      else do
        send (.get key)
        match lookup key with
        | .unreadable => readKeys lookup blank read keys
        | .missing => do
            send (.remove key)
            readKeys lookup blank read keys
        | .valueless => return blank :: (← readKeys lookup blank read keys)
        | .found value =>
            match ← ofExcept (read key value) with
            | none => readKeys lookup blank read keys
            | some row => return row :: (← readKeys lookup blank read keys)

/-- A document of another kind is passed over. -/
theorem readDocument_of_parse {env : Externals} {value metadata : String}
    {json : Json} (hparse : env.parse value = .ok json)
    (hkind : json.string? "metadata" = some metadata) (kind : String)
    (read : Json → Except Fault (Option Row)) :
    readDocument env kind read value =
      if metadata ≠ kind then .ok none else read json := by
  have hobject := Json.isObject_of_string? hkind
  have hparsed : env.parseOrThrow value = .ok json := by
    rw [Externals.parseOrThrow, hparse]
  have hmetadata : fetchString json "metadata" = .ok metadata :=
    (fetchString_eq_ok hobject).mpr hkind
  rw [readDocument, hparsed]
  change (assertThat json.isObject >>= fun _ => _) = _
  rw [hobject]
  change (fetchString json "metadata" >>= fun _ => _) = _
  rw [hmetadata]
  rfl

theorem readDocument_eq_some {env : Externals} {kind value : String}
    {read : Json → Except Fault (Option Row)} {row : Row}
    (h : readDocument env kind read value = .ok (some row)) :
    ∃ json, env.parse value = .ok json ∧
      json.string? "metadata" = some kind ∧ read json = .ok (some row) := by
  obtain ⟨json, hparsed, hasserted⟩ := bind_eq_ok.mp h
  obtain ⟨_, hassert, hfetched⟩ := bind_eq_ok.mp hasserted
  obtain ⟨metadata, hmetadata, -⟩ := bind_eq_ok.mp hfetched
  have hobject : json.isObject = true := yields_assertThat.mp ⟨_, hassert⟩
  have hparse : env.parse value = .ok json := by
    rw [Externals.parseOrThrow] at hparsed
    split at hparsed
    · cases hparsed
      assumption
    · cases hparsed
  have hkind := (fetchString_eq_ok hobject).mp hmetadata
  rw [readDocument_of_parse hparse hkind] at h
  by_cases hequal : metadata = kind
  · subst hequal
    rw [if_neg (by simp)] at h
    exact ⟨json, hparse, hkind, h⟩
  · rw [if_pos hequal] at h
    cases h

def AllRead (lookup : String → Lookup)
    (read : String → String → Except Fault (Option Row)) (keys : List String) :
    Prop :=
  ∀ key ∈ keys, key ≠ "NULL" → ∀ value, lookup key = .found value →
    Yields (read key value)

variable {lookup : String → Lookup} {blank : Row}
  {read : String → String → Except Fault (Option Row)} {calls : List ClientCall}

theorem returns_send_bind {α : Type} {call : ClientCall}
    {next : Unit → Session α} :
    Returns (send call >>= next) calls ↔
      Returns (next ()) (calls ++ [call]) :=
  Iff.rfl

theorem allRead_cons {key : String} {keys : List String} :
    AllRead lookup read (key :: keys) ↔
      (key ≠ "NULL" → ∀ value, lookup key = .found value →
        Yields (read key value)) ∧ AllRead lookup read keys := by
  simp only [AllRead, List.forall_mem_cons]

theorem returns_readKeys (keys : List String) :
    Returns (readKeys lookup blank read keys) calls ↔
      AllRead lookup read keys := by
  induction keys generalizing calls with
  | nil => simp [readKeys, AllRead]
  | cons key keys ih =>
      rw [allRead_cons, readKeys]
      by_cases hnull : key = "NULL"
      · simp [hnull, ih]
      rw [if_neg hnull, returns_send_bind]
      cases hlookup : lookup key with
      | unreadable => simp [ih]
      | missing =>
          dsimp only
          rw [returns_send_bind, ih]
          simp
      | valueless =>
          dsimp only
          rw [returns_bind_pure, ih]
          simp
      | found value =>
          dsimp only
          rw [returns_ofExcept_bind]
          cases hread : read key value with
          | error fault =>
              refine iff_of_false (by simp) fun h => ?_
              exact not_yields_error fault (hread ▸ h.1 hnull value rfl)
          | ok result =>
              simp only [Except.ok.injEq, exists_eq_left', Lookup.found.injEq,
                forall_eq', hread, yields_ok, implies_true, true_and]
              cases result with
              | none => exact ih
              | some row =>
                  dsimp only
                  rw [returns_bind_pure, ih]

def rowAt (lookup : String → Lookup) (blank : Row)
    (read : String → String → Except Fault (Option Row)) (key : String) :
    Option Row :=
  if key = "NULL" then none
  else
    match lookup key with
    | .unreadable => none
    | .missing => none
    | .valueless => some blank
    | .found value => (read key value).toOption.join

theorem rowAt_eq_some {key : String} {row : Row}
    (h : rowAt lookup blank read key = some row) :
    row = blank ∨ ∃ value, lookup key = .found value ∧
      read key value = .ok (some row) := by
  unfold rowAt at h
  split at h
  · cases h
  cases hlookup : lookup key with
  | unreadable | missing =>
      rw [hlookup] at h
      cases h
  | valueless =>
      rw [hlookup, Option.some.injEq] at h
      exact .inl h.symm
  | found value =>
      rw [hlookup] at h
      refine .inr ⟨value, rfl, ?_⟩
      cases hread : read key value with
      | error fault => simp [hread, Except.toOption] at h
      | ok result =>
          simp only [hread, Except.toOption, Option.join_some] at h
          rw [h]

def callsAt (lookup : String → Lookup) (key : String) : List ClientCall :=
  if key = "NULL" then []
  else if lookup key = .missing then [.get key, .remove key] else [.get key]

theorem run_send_bind {α : Type} {call : ClientCall} {next : Unit → Session α} :
    (send call >>= next).run calls = (next ()).run (calls ++ [call]) := (rfl)

theorem run_readKeys (keys : List String) (hread : AllRead lookup read keys) :
    (readKeys lookup blank read keys).run calls =
      .ok (keys.filterMap (rowAt lookup blank read))
        (calls ++ keys.flatMap (callsAt lookup)) := by
  induction keys generalizing calls with
  | nil => simp [readKeys]
  | cons key keys ih =>
      obtain ⟨hkey, hkeys⟩ := allRead_cons.mp hread
      have hrest (calls : List ClientCall) :
          (readKeys lookup blank read keys).run calls =
            .ok (keys.filterMap (rowAt lookup blank read))
              (calls ++ keys.flatMap (callsAt lookup)) :=
        ih hkeys
      rw [readKeys, List.filterMap_cons, List.flatMap_cons, rowAt, callsAt]
      by_cases hnull : key = "NULL"
      · simpa [hnull] using hrest calls
      simp only [if_neg hnull]
      rw [run_send_bind]
      cases hlookup : lookup key with
      | unreadable =>
          dsimp only
          rw [hrest, List.append_assoc]
          rfl
      | missing =>
          dsimp only
          rw [run_send_bind, hrest, List.append_assoc, List.append_assoc]
          rfl
      | valueless =>
          dsimp only
          rw [run_bind_of_ok (hrest _), List.append_assoc]
          rfl
      | found value =>
          obtain ⟨result, hresult⟩ := hkey hnull value hlookup
          dsimp only
          rw [hresult, run_bind_of_ok (run_ofExcept_eq_ok.mpr ⟨rfl, rfl⟩)]
          cases result with
          | none =>
              dsimp only
              rw [hrest, List.append_assoc]
              rfl
          | some row =>
              dsimp only
              rw [run_bind_of_ok (hrest _), List.append_assoc]
              rfl

/--
The call returns, and with the row of every value that is found under one of
the keys and that `read` makes a row of.
-/
def Shows (lookup : String → Lookup)
    (read : String → String → Except Fault (Option Row)) (keys : List String)
    (call : Session (List Row)) : Prop :=
  ∃ rows calls, call.run [] = .ok rows calls ∧
    ∀ key ∈ keys, ∀ value row, lookup key = .found value →
      read key value = .ok (some row) → row ∈ rows

def FoundRead (lookup : String → Lookup)
    (read : String → String → Except Fault (Option Row)) (keys : List String) :
    Prop :=
  ∀ key ∈ keys, ∀ value, lookup key = .found value → Yields (read key value)

theorem Shows.returns {keys : List String} {call : Session (List Row)}
    (h : Shows lookup read keys call) : Returns call [] := by
  obtain ⟨rows, calls, hrun, -⟩ := h
  exact ⟨rows, calls, hrun⟩

theorem shows_of_returns {keys : List String} {call : Session (List Row)}
    (hmissing : ∀ key ∈ keys, ∀ value, lookup key ≠ .found value)
    (h : Returns call []) : Shows lookup read keys call := by
  obtain ⟨rows, calls, hrun⟩ := h
  refine ⟨rows, calls, hrun, fun key hkey value row hfound => ?_⟩
  exact absurd hfound (hmissing key hkey value)

theorem foundRead_of_missing {keys : List String}
    (hmissing : ∀ key ∈ keys, ∀ value, lookup key ≠ .found value) :
    FoundRead lookup read keys :=
  fun key hkey value hfound => absurd hfound (hmissing key hkey value)

theorem allRead_iff_foundRead {keys : List String}
    (hnames : ∀ key ∈ keys, ∀ value, lookup key = .found value →
      key ≠ "NULL") :
    AllRead lookup read keys ↔ FoundRead lookup read keys := by
  constructor
  · intro h key hkey value hfound
    exact h key hkey (hnames key hkey value hfound) value hfound
  · intro h key hkey _ value hfound
    exact h key hkey value hfound

/-- What is done with the rows loses none of them. -/
theorem shows_arranged {keys : List String} {arrange : List Row → List Row}
    (hnames : ∀ key ∈ keys, ∀ value, lookup key = .found value →
      key ≠ "NULL")
    (harrange : ∀ rows row, row ∈ rows → row ∈ arrange rows) :
    Shows lookup read keys
        (readKeys lookup blank read keys >>= fun rows =>
          pure (arrange rows)) ↔
      FoundRead lookup read keys := by
  rw [← allRead_iff_foundRead hnames]
  constructor
  · intro h
    exact (returns_readKeys keys).mp (returns_bind_pure.mp h.returns)
  · intro h
    refine ⟨_, _, run_bind_of_ok (run_readKeys keys h), ?_⟩
    intro key hkey value row hfound hread
    apply harrange
    apply List.mem_filterMap.mpr
    refine ⟨key, hkey, ?_⟩
    rw [rowAt, if_neg (hnames key hkey value hfound), hfound]
    dsimp only
    rw [hread]
    rfl

theorem shows_readKeys {keys : List String}
    (hnames : ∀ key ∈ keys, ∀ value, lookup key = .found value →
      key ≠ "NULL") :
    Shows lookup read keys (readKeys lookup blank read keys) ↔
      FoundRead lookup read keys := by
  have h : Shows lookup read keys
      (readKeys lookup blank read keys >>= fun rows => pure rows) ↔
        FoundRead lookup read keys :=
    shows_arranged hnames fun _ _ hrow => hrow
  rwa [bind_pure] at h

theorem readKeys_congr {other : String → String → Except Fault (Option Row)}
    (keys : List String)
    (h : ∀ key ∈ keys, ∀ value, lookup key = .found value →
      read key value = other key value) :
    readKeys lookup blank read keys = readKeys lookup blank other keys := by
  induction keys with
  | nil => rfl
  | cons key keys ih =>
      obtain ⟨hkey, hkeys⟩ := List.forall_mem_cons.mp h
      rw [readKeys, readKeys, ih hkeys]
      cases hlookup : lookup key with
      | found value =>
          dsimp only
          rw [hkey value hlookup]
      | _ => rfl

end Rows

end Neroshop.Rpc
