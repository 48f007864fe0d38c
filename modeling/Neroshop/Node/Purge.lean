import Neroshop.Node.Rejection

/-!
# The periodic removal of expired data

`purge` walks over `data` with a range-for, and `expire`, which it calls with
references into the entry it stands at, erases that entry where it has expired.
The key is read after that and the iterator is advanced, so that nothing is
defined from the first removal on.
-/

namespace Neroshop.Node

section Pass

variable (env : Externals) (moment : Moment)

/-- The deletes that `expire` sends, whatever became of the one before. -/
def deleteRows (tables : Store) (key : String) : Store :=
  { tables with
    mappings :=
      if moment.executes .deleteMappings
      then tables.mappings.filter fun row => row.key ≠ key
      else tables.mappings
    hashTable :=
      if moment.executes .deleteHashTable
      then tables.hashTable.erase key else tables.hashTable }

/-- `remove` and, as the key is not in `data` any more, the rows of the key. -/
def removeExpired (tables : Store) (key : String) : Store :=
  if ((tables.remove key).data.lookup key).isNone
  then deleteRows moment (tables.remove key) key
  else tables.remove key

def expire (tables : Store) (key value : String) : Except Fault Store :=
  match env.parse value with
  | .error .parseError => .ok tables
  | .error .outOfRange => .error .outOfRange
  | .ok json =>
      match expiry moment.clock json with
      | .current => .ok tables
      | .malformed => .ok (removeExpired moment tables key)
      | .expired =>
          .ok (if (tables.data.lookup key).isSome
            then removeExpired moment tables key else tables)

/-- What is known when the loop ends: of a pass that uses an iterator to an
entry that is gone, only which entries it has examined. -/
inductive Pass where
  | finished (examined : List (Σ _ : String, String)) (tables : Store)
  | invalidated (examined : List (Σ _ : String, String))
  /-- Nothing catches what `expire` throws. -/
  | thrown (fault : Fault) (examined : List (Σ _ : String, String))

/-- The loop from the entries that it has still to come to. -/
def purgeFrom (examined : List (Σ _ : String, String)) (tables : Store) :
    List (Σ _ : String, String) → Pass
  | [] => .finished examined tables
  | entry :: rest =>
      match expire env moment tables entry.1 entry.2 with
      | .error fault => .thrown fault (examined ++ [entry])
      | .ok after =>
          if (after.data.lookup entry.1).isSome
          then purgeFrom (examined ++ [entry]) after rest
          else .invalidated (examined ++ [entry])

/-- An order in which an `unordered_map` comes upon its entries. -/
structure IterationOrder (data : Finmap fun _ : String => String) where
  entries : List (Σ _ : String, String)
  holds : (entries : Multiset (Σ _ : String, String)) = data.entries

/-- One pass of `purge`. -/
def purge (tables : Store) (order : IterationOrder tables.data) : Pass :=
  purgeFrom env moment [] tables order.entries

/-- No expiration date, or one that has not passed. -/
def KeepsUntil (clock : Int) (value : String) : Prop :=
  ∀ json, env.parse value = .ok json → expiry clock json = .current

/-- What a pass over the table is there for. -/
structure Purged (tables : Store) (examined : List (Σ _ : String, String))
    (after : Store) : Prop where
  once : (examined : Multiset (Σ _ : String, String)) = tables.data.entries
  leaves : ∀ key value, after.data.lookup key = some value ↔
    tables.data.lookup key = some value ∧ KeepsUntil env moment.clock value
  others : ∀ key value, tables.data.lookup key = some value →
    ¬ KeepsUntil env moment.clock value → after.rows key = (none, none, [])

def Pass.Purges (tables : Store) : Pass → Prop
  | .finished examined after => Purged env moment tables examined after
  | .invalidated _ => False
  | .thrown _ _ => False

/-- What `expire` reads without an uncaught error, and leaves where it is. -/
structure LeftAlone (clock : Int) (value : String) : Prop where
  readable : env.parse value ≠ .error .outOfRange
  keeps : KeepsUntil env clock value

end Pass

section Lemmas

variable {env : Externals} {moment : Moment} {tables : Store}
  {key value : String}

theorem expire_of_leftAlone (h : LeftAlone env moment.clock value) :
    expire env moment tables key value = .ok tables := by
  unfold expire
  cases hparse : env.parse value with
  | error error =>
      cases error with
      | parseError => rfl
      | outOfRange => exact absurd hparse h.readable
  | ok json =>
      dsimp only
      rw [h.keeps json hparse]

theorem data_removeExpired :
    (removeExpired moment tables key).data = tables.data.erase key := by
  unfold removeExpired
  split <;> rfl

theorem rows_removeExpired (hmappings : moment.executes .deleteMappings)
    (hhashTable : moment.executes .deleteHashTable) :
    (removeExpired moment tables key).rows key = (none, none, []) := by
  have hgone : ((tables.remove key).data.lookup key).isNone = true := by
    rw [Store.remove, Store.eraseData, Finmap.lookup_erase, Option.isNone_none]
  rw [removeExpired, if_pos hgone, deleteRows, Store.rows, if_pos hmappings,
    if_pos hhashTable, Store.remove, Store.eraseData, Finmap.lookup_erase,
    Finmap.lookup_erase, List.filter_filter]
  simp

/-- Nothing is known of an unreadable entry, and any other one is erased. -/
theorem expire_of_not_leftAlone (hstored : tables.data.lookup key = some value)
    (h : ¬ LeftAlone env moment.clock value) :
    expire env moment tables key value = .error .outOfRange ∨
      ∃ after, expire env moment tables key value = .ok after ∧
        after.data.lookup key = none := by
  have herased : (removeExpired moment tables key).data.lookup key = none := by
    rw [data_removeExpired, Finmap.lookup_erase]
  unfold expire
  cases hparse : env.parse value with
  | error error =>
      cases error with
      | parseError =>
          refine absurd ⟨by simp [hparse], fun json hjson => ?_⟩ h
          rw [hparse] at hjson
          cases hjson
      | outOfRange => exact .inl rfl
  | ok json =>
      right
      dsimp only
      cases hcase : expiry moment.clock json with
      | current =>
          refine absurd ⟨by simp [hparse], fun other hother => ?_⟩ h
          rw [hparse, Except.ok.injEq] at hother
          exact hother ▸ hcase
      | malformed => exact ⟨_, rfl, herased⟩
      | expired =>
          refine ⟨_, rfl, ?_⟩
          rw [hstored, Option.isSome_some, if_pos rfl]
          exact herased

/-- A step that comes upon an entry to keep goes on from the same tables. -/
theorem purgeFrom_cons_of_leftAlone {examined rest : List (Σ _ : String, String)}
    {entry : Σ _ : String, String}
    (hstored : tables.data.lookup entry.1 = some entry.2)
    (h : LeftAlone env moment.clock entry.2) :
    purgeFrom env moment examined tables (entry :: rest) =
      purgeFrom env moment (examined ++ [entry]) tables rest := by
  rw [purgeFrom, expire_of_leftAlone h]
  dsimp only
  rw [hstored, Option.isSome_some, if_pos rfl]

theorem purgeFrom_cons_of_removed {examined rest : List (Σ _ : String, String)}
    {entry : Σ _ : String, String} {after : Store}
    (hexpire : expire env moment tables entry.1 entry.2 = .ok after)
    (hafter : after.data.lookup entry.1 = none) :
    purgeFrom env moment examined tables (entry :: rest) =
      .invalidated (examined ++ [entry]) := by
  rw [purgeFrom, hexpire]
  dsimp only
  rw [hafter, Option.isSome_none, if_neg Bool.false_ne_true]

theorem purgeFrom_cons_of_not_leftAlone
    (examined rest : List (Σ _ : String, String)) {entry : Σ _ : String, String}
    (hstored : tables.data.lookup entry.1 = some entry.2)
    (h : ¬ LeftAlone env moment.clock entry.2) :
    purgeFrom env moment examined tables (entry :: rest) =
        .thrown .outOfRange (examined ++ [entry]) ∨
      purgeFrom env moment examined tables (entry :: rest) =
        .invalidated (examined ++ [entry]) := by
  rcases expire_of_not_leftAlone hstored h with hthrown | ⟨after, hexpire, hafter⟩
  · rw [purgeFrom, hthrown]
    exact .inl rfl
  · exact .inr (purgeFrom_cons_of_removed hexpire hafter)

/-- The pass ends at the first entry that is not left alone, or at the end. -/
theorem purgeFrom_eq (env : Externals) (moment : Moment)
    (entries : List (Σ _ : String, String))
    (hstored : ∀ entry ∈ entries, tables.data.lookup entry.1 = some entry.2)
    (examined : List (Σ _ : String, String)) :
    (∀ entry ∈ entries, LeftAlone env moment.clock entry.2) ∧
      purgeFrom env moment examined tables entries =
        .finished (examined ++ entries) tables ∨
    (∃ entry ∈ entries, ¬ LeftAlone env moment.clock entry.2) ∧
      ¬ (purgeFrom env moment examined tables entries).Purges env moment
        tables := by
  induction entries generalizing examined with
  | nil => exact .inl ⟨by simp, by rw [List.append_nil]; rfl⟩
  | cons entry rest ih =>
      have hentry := hstored entry List.mem_cons_self
      by_cases hleft : LeftAlone env moment.clock entry.2
      · rw [purgeFrom_cons_of_leftAlone hentry hleft]
        rcases ih (fun other hother => hstored other (.tail _ hother))
          (examined ++ [entry]) with ⟨hall, hrun⟩ | ⟨⟨other, hother, hnot⟩, hrun⟩
        · refine .inl ⟨List.forall_mem_cons.mpr ⟨hleft, hall⟩, ?_⟩
          rw [hrun, List.append_assoc, List.singleton_append]
        · exact .inr ⟨⟨other, .tail _ hother, hnot⟩, hrun⟩
      · refine .inr ⟨⟨entry, List.mem_cons_self, hleft⟩, ?_⟩
        rcases purgeFrom_cons_of_not_leftAlone examined rest hentry hleft
          with hrun | hrun
        · rw [hrun]
          exact id
        · rw [hrun]
          exact id

theorem IterationOrder.mem_entries (order : IterationOrder tables.data)
    (entry : Σ _ : String, String) :
    entry ∈ order.entries ↔ tables.data.lookup entry.1 = some entry.2 := by
  rw [Finmap.lookup_eq_some_iff, ← order.holds, Multiset.mem_coe]

/--
A pass is what it is there for exactly where it can read every entry and
nothing that it examines has expired.
-/
theorem purge_purges_iff (order : IterationOrder tables.data) :
    (purge env moment tables order).Purges env moment tables ↔
      ∀ key value, tables.data.lookup key = some value →
        LeftAlone env moment.clock value := by
  rcases purgeFrom_eq env moment order.entries
    (fun entry hentry => (order.mem_entries entry).mp hentry) [] with
    ⟨hleft, hrun⟩ | ⟨⟨entry, hentry, hexpired⟩, hrun⟩
  · have hall : ∀ key value, tables.data.lookup key = some value →
        LeftAlone env moment.clock value :=
      fun key value hstored =>
        hleft ⟨key, value⟩ ((order.mem_entries _).mpr hstored)
    refine iff_of_true ?_ hall
    rw [purge, hrun]
    refine ⟨order.holds, fun key value => ?_, fun key value hstored hnot => ?_⟩
    · exact ⟨fun hstored => ⟨hstored, (hall key value hstored).keeps⟩, And.left⟩
    · exact absurd (hall key value hstored).keeps hnot
  · exact iff_of_false hrun fun hall => hexpired
      (hall entry.1 entry.2 ((order.mem_entries entry).mp hentry))

end Lemmas

/-! ## One expired message -/

def expiredStore : Store := Store.empty.insertData sampleKey expiredText

def expiredOrder : IterationOrder expiredStore.data where
  entries := [⟨sampleKey, expiredText⟩]
  holds := rfl

/-- The iterator to the only entry is advanced after the entry is erased. -/
theorem purge_invalidates :
    purge expiringExternals sampleMoment expiredStore expiredOrder =
        .invalidated [⟨sampleKey, expiredText⟩] ∧
      ¬ (purge expiringExternals sampleMoment expiredStore expiredOrder).Purges
        expiringExternals sampleMoment expiredStore := by
  have hrun : purge expiringExternals sampleMoment expiredStore expiredOrder =
      .invalidated [⟨sampleKey, expiredText⟩] := by
    have hexpire : expire expiringExternals sampleMoment expiredStore sampleKey
        expiredText =
          .ok (removeExpired sampleMoment expiredStore sampleKey) := by
      decide +kernel
    exact purgeFrom_cons_of_removed hexpire (by decide)
  rw [hrun]
  exact ⟨rfl, id⟩

end Neroshop.Node
