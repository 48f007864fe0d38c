import Mathlib.Data.List.Dedup
import Neroshop.Market.Cart

/-!
# Favorites

What a user has favorited is kept twice: in memory, where `has_favorited` looks
it up, and in the rows of `favorites` that carry the user's id.  The user object
is made on login, which loads the rows.  An `INSERT` or a `DELETE` may fail.
-/

namespace Neroshop.Market

open Neroshop.Foundation Neroshop.Node

/-! ## The table -/

structure FavoriteRow where
  userId : String
  listingKey : String
  deriving DecidableEq

/-- The table `favorites`, of which `UNIQUE(user_id, listing_key)` is a part. -/
structure FavoritesTable where
  rows : List FavoriteRow
  unique : rows.Nodup

theorem nodup_concat_row {rows : List FavoriteRow} {row : FavoriteRow}
    (hrows : rows.Nodup) (hrow : row ∉ rows) : (rows ++ [row]).Nodup := by
  rw [List.nodup_append_comm, List.singleton_append, List.nodup_cons]
  exact ⟨hrow, hrows⟩

namespace FavoritesTable

/-- `SELECT EXISTS`. -/
def contains (table : FavoritesTable) (userId listingKey : String) : Bool :=
  ⟨userId, listingKey⟩ ∈ table.rows

/-- `SELECT listing_key`. -/
def keysOf (table : FavoritesTable) (userId : String) : List String :=
  (table.rows.filter (·.userId = userId)).map FavoriteRow.listingKey

/-- `INSERT`, which the constraint refuses for a row that is there. -/
def insert (table : FavoritesTable) (row : FavoriteRow) : Option FavoritesTable :=
  if h : row ∈ table.rows then none
  else some ⟨table.rows ++ [row], nodup_concat_row table.unique h⟩

/-- `DELETE` of the rows that meet the condition. -/
def delete (table : FavoritesTable) (condition : FavoriteRow → Bool) :
    FavoritesTable :=
  ⟨table.rows.filter fun row => !condition row, table.unique.filter _⟩

theorem contains_iff {table : FavoritesTable} {userId listingKey : String} :
    table.contains userId listingKey = true ↔
      ⟨userId, listingKey⟩ ∈ table.rows :=
  decide_eq_true_iff

theorem mem_keysOf {table : FavoritesTable} {userId listingKey : String} :
    listingKey ∈ table.keysOf userId ↔ ⟨userId, listingKey⟩ ∈ table.rows := by
  rw [keysOf, List.mem_map]
  constructor
  · rintro ⟨⟨owner, key⟩, hrow, rfl⟩
    rw [List.mem_filter, decide_eq_true_iff] at hrow
    obtain ⟨hmem, rfl⟩ := hrow
    exact hmem
  · intro hmem
    exact ⟨_, List.mem_filter.mpr ⟨hmem, decide_eq_true rfl⟩, rfl⟩

theorem insert_eq_some {table after : FavoritesTable} {row : FavoriteRow}
    (h : table.insert row = some after) : after.rows = table.rows ++ [row] := by
  rw [insert] at h
  split at h
  case isTrue => cases h
  case isFalse =>
    cases h
    rfl

theorem mem_delete {table : FavoritesTable} {condition : FavoriteRow → Bool}
    {row : FavoriteRow} :
    row ∈ (table.delete condition).rows ↔
      row ∈ table.rows ∧ condition row = false := by
  rw [delete, List.mem_filter, Bool.not_eq_true']

end FavoritesTable

/-! ## The user -/

/-- The user who is logged in, next to the table. -/
structure Favorites where
  id : String
  favorites : List String
  table : FavoritesTable

inductive FavoritesCall where
  /-- A new user object, with the keys in the order they are selected in. -/
  | onLogin (id : String) (selected : List String)
  | load (selected : List String)
  | add (listingKey : String) (inserts : Bool)
  | remove (listingKey : String) (deletes : Bool)
  | clear (deletes : Bool)

namespace Favorites

/-- `SELECT DISTINCT listing_key` gives the keys in some order. -/
def Selects (state : Favorites) (selected : List String) : Prop :=
  selected.Perm (state.table.keysOf state.id).dedup

instance (state : Favorites) (selected : List String) :
    Decidable (state.Selects selected) := by
  unfold Selects
  infer_instance

def loadFavorites (state : Favorites) (selected : List String) : Favorites :=
  { state with favorites := selected.filter (· ≠ "NULL") }

def addToFavorites (state : Favorites) (listingKey : String) (inserts : Bool) :
    Favorites :=
  if state.table.contains state.id listingKey then state
  else if inserts then
    match state.table.insert ⟨state.id, listingKey⟩ with
    | none => state
    | some table =>
        { state with
          table := table
          favorites := state.favorites ++ [listingKey] }
  else state

def removeFromFavorites (state : Favorites) (listingKey : String)
    (deletes : Bool) : Favorites :=
  if state.table.contains state.id listingKey then
    if deletes then
      { state with
        table := state.table.delete (· = ⟨state.id, listingKey⟩)
        favorites := state.favorites.erase listingKey }
    else state
  else { state with favorites := state.favorites.erase listingKey }

/-- `COUNT(*)` is read as an `int`. -/
def clearFavorites (state : Favorites) (deletes : Bool) : Favorites :=
  if toInt (state.table.keysOf state.id).length ≤ 0 then state
  else if deletes then
    { state with
      table := state.table.delete (·.userId = state.id)
      favorites := [] }
  else state

def hasFavorited (state : Favorites) (listingKey : String) : Bool :=
  state.favorites.any (· = listingKey)

def step (state : Favorites) : FavoritesCall → Option Favorites
  | .onLogin id selected =>
      let user : Favorites := ⟨id, [], state.table⟩
      if user.Selects selected then some (user.loadFavorites selected) else none
  | .load selected =>
      if state.Selects selected then some (state.loadFavorites selected) else none
  | .add listingKey inserts => some (state.addToFavorites listingKey inserts)
  | .remove listingKey deletes =>
      some (state.removeFromFavorites listingKey deletes)
  | .clear deletes => some (state.clearFavorites deletes)

end Favorites

/-- Sixty-four hexadecimal digits. -/
def IsListingKey (text : String) : Prop :=
  text.length = 64 ∧ ∀ char ∈ text.toList,
    char ∈ "0123456789abcdefABCDEF".toList

theorem IsListingKey.ne_null {text : String} (h : IsListingKey text) :
    text ≠ "NULL" := by
  rintro rfl
  exact absurd h.1 (by decide)

/-- The key that is put in the table is a key of a listing. -/
def FavoritesCall.KeyValid : FavoritesCall → Prop
  | .add listingKey _ => IsListingKey listingKey
  | .remove listingKey _ => IsListingKey listingKey
  | _ => True

/-! ## What a call keeps -/

namespace Favorites

/-- The memory has the keys of the user's rows, each of them once. -/
structure Mirrors (state : Favorites) : Prop where
  nodup : state.favorites.Nodup
  mem : ∀ listingKey, listingKey ∈ state.favorites ↔
    ⟨state.id, listingKey⟩ ∈ state.table.rows
  keys : ∀ row ∈ state.table.rows, IsListingKey row.listingKey

theorem loadFavorites_mirrors {state : Favorites} {selected : List String}
    (hkeys : ∀ row ∈ state.table.rows, IsListingKey row.listingKey)
    (h : state.Selects selected) : (state.loadFavorites selected).Mirrors where
  nodup := (h.nodup_iff.mpr (List.nodup_dedup _)).filter _
  mem := by
    intro listingKey
    have hselected : listingKey ∈ selected ↔
        ⟨state.id, listingKey⟩ ∈ state.table.rows := by
      rw [h.mem_iff, List.mem_dedup, FavoritesTable.mem_keysOf]
    rw [loadFavorites, List.mem_filter, hselected, decide_eq_true_iff,
      and_iff_left_iff_imp]
    exact fun hrow => (hkeys _ hrow).ne_null
  keys := hkeys

theorem addToFavorites_mirrors {state : Favorites} {listingKey : String}
    (hkey : IsListingKey listingKey) (inserts : Bool) (h : state.Mirrors) :
    (state.addToFavorites listingKey inserts).Mirrors := by
  rw [addToFavorites]
  split
  case isTrue => exact h
  case isFalse habsent =>
    rw [FavoritesTable.contains_iff] at habsent
    split
    case isFalse => exact h
    case isTrue =>
      split
      case h_1 => exact h
      case h_2 table hinsert =>
        have hrows := FavoritesTable.insert_eq_some hinsert
        have hnew : listingKey ∉ state.favorites :=
          fun hmem => habsent ((h.mem listingKey).mp hmem)
        constructor
        case nodup =>
          rw [List.nodup_append_comm, List.singleton_append, List.nodup_cons]
          exact ⟨hnew, h.nodup⟩
        case mem =>
          intro key
          rw [hrows, List.mem_append, List.mem_append, h.mem,
            List.mem_singleton, List.mem_singleton, FavoriteRow.mk.injEq,
            eq_self, true_and]
        case keys =>
          intro row hrow
          rw [hrows, List.mem_append, List.mem_singleton] at hrow
          obtain hrow | rfl := hrow
          · exact h.keys row hrow
          · exact hkey

theorem removeFromFavorites_mirrors {state : Favorites} (listingKey : String)
    (deletes : Bool) (h : state.Mirrors) :
    (state.removeFromFavorites listingKey deletes).Mirrors := by
  rw [removeFromFavorites]
  split
  case isTrue =>
    split
    case isTrue =>
      constructor
      case nodup => exact h.nodup.erase _
      case mem =>
        intro key
        rw [h.nodup.mem_erase_iff, h.mem, FavoritesTable.mem_delete,
          decide_eq_false_iff_not, FavoriteRow.mk.injEq, eq_self, true_and,
          and_comm]
      case keys =>
        exact fun row hrow => h.keys row (FavoritesTable.mem_delete.mp hrow).1
    case isFalse => exact h
  case isFalse habsent =>
    -- the key is not in memory either, so that nothing is erased
    rw [FavoritesTable.contains_iff, ← h.mem] at habsent
    rw [List.erase_of_not_mem habsent]
    exact h

theorem clearFavorites_mirrors {state : Favorites} (deletes : Bool)
    (h : state.Mirrors) : (state.clearFavorites deletes).Mirrors := by
  rw [clearFavorites]
  split
  case isTrue => exact h
  case isFalse =>
    split
    case isTrue =>
      constructor
      case nodup => exact List.nodup_nil
      case mem =>
        intro key
        refine iff_of_false List.not_mem_nil fun hrow => ?_
        exact absurd (FavoritesTable.mem_delete.mp hrow).2 (by simp)
      case keys =>
        exact fun row hrow => h.keys row (FavoritesTable.mem_delete.mp hrow).1
    case isFalse => exact h

/-- A new user object has the table of the one before it. -/
theorem onLogin_mirrors {state next : Favorites} {id : String}
    {selected : List String}
    (hkeys : ∀ row ∈ state.table.rows, IsListingKey row.listingKey)
    (hstep : state.step (.onLogin id selected) = some next) : next.Mirrors := by
  obtain ⟨hselects, hnext⟩ := Option.ite_none_right_eq_some.mp hstep
  rw [← Option.some.inj hnext]
  exact loadFavorites_mirrors hkeys hselects

theorem step_mirrors {state next : Favorites} {call : FavoritesCall}
    (hkey : call.KeyValid) (h : state.Mirrors)
    (hstep : state.step call = some next) : next.Mirrors := by
  cases call with
  | onLogin id selected => exact onLogin_mirrors h.keys hstep
  | load selected =>
      obtain ⟨hselects, hnext⟩ := Option.ite_none_right_eq_some.mp hstep
      rw [← Option.some.inj hnext]
      exact loadFavorites_mirrors h.keys hselects
  | add listingKey inserts =>
      cases hstep
      exact addToFavorites_mirrors hkey inserts h
  | remove listingKey deletes =>
      cases hstep
      exact removeFromFavorites_mirrors listingKey deletes h
  | clear deletes =>
      rw [step, Option.some.injEq] at hstep
      exact hstep ▸ clearFavorites_mirrors deletes h

theorem hasFavorited_iff {state : Favorites} (h : state.Mirrors)
    (listingKey : String) :
    state.hasFavorited listingKey = true ↔
      ⟨state.id, listingKey⟩ ∈ state.table.rows := by
  rw [← h.mem, hasFavorited, List.any_eq_true]
  constructor
  · rintro ⟨key, hmem, hkey⟩
    exact of_decide_eq_true hkey ▸ hmem
  · exact fun hmem => ⟨listingKey, hmem, decide_eq_true rfl⟩

/-- The rows of other users stay as they are. -/
theorem step_frame {state next : Favorites} {call : FavoritesCall}
    {row : FavoriteRow} (hstep : state.step call = some next)
    (hother : row.userId ≠ next.id) :
    row ∈ next.table.rows ↔ row ∈ state.table.rows := by
  cases call with
  | onLogin id selected =>
      obtain ⟨-, hnext⟩ := Option.ite_none_right_eq_some.mp hstep
      rw [← Option.some.inj hnext, loadFavorites]
  | load selected =>
      obtain ⟨-, hnext⟩ := Option.ite_none_right_eq_some.mp hstep
      rw [← Option.some.inj hnext, loadFavorites]
  | add listingKey inserts =>
      rw [step, Option.some.injEq, addToFavorites] at hstep
      split at hstep
      case isTrue => rw [hstep]
      case isFalse =>
        split at hstep
        case isFalse => rw [hstep]
        case isTrue =>
          split at hstep
          case h_1 => rw [hstep]
          case h_2 table hinsert =>
            subst hstep
            rw [FavoritesTable.insert_eq_some hinsert, List.mem_append,
              List.mem_singleton, or_iff_left]
            rintro rfl
            exact hother rfl
  | remove listingKey deletes =>
      rw [step, Option.some.injEq, removeFromFavorites] at hstep
      split at hstep
      case isTrue =>
        split at hstep
        case isTrue =>
          subst hstep
          rw [FavoritesTable.mem_delete, and_iff_left_iff_imp,
            decide_eq_false_iff_not]
          rintro - rfl
          exact hother rfl
        case isFalse => rw [hstep]
      case isFalse =>
        subst hstep
        rfl
  | clear deletes =>
      rw [step, Option.some.injEq, clearFavorites] at hstep
      split at hstep
      case isTrue => rw [hstep]
      case isFalse =>
        split at hstep
        case isTrue =>
          subst hstep
          rw [FavoritesTable.mem_delete, and_iff_left_iff_imp,
            decide_eq_false_iff_not]
          exact fun _ => hother
        case isFalse => rw [hstep]

/-! ## Sessions -/

/-- Before the first login of a run. -/
def closed (table : FavoritesTable) : Favorites := ⟨"", [], table⟩

/--
From a login on, and through every later one, the memory has exactly the keys
of the user's rows.
-/
theorem favorites_mirror_rows {table : FavoritesTable} {id : String}
    {selected : List String} {calls : List FavoritesCall} {state : Favorites}
    (hrows : ∀ row ∈ table.rows, IsListingKey row.listingKey)
    (hcalls : ∀ call ∈ calls, call.KeyValid)
    (hrun : runFrom step (closed table) (.onLogin id selected :: calls) =
      some state) :
    state.favorites.Nodup ∧
      { listingKey | listingKey ∈ state.favorites } =
        { listingKey | ⟨state.id, listingKey⟩ ∈ state.table.rows } ∧
      ∀ listingKey, state.hasFavorited listingKey = true ↔
        ⟨state.id, listingKey⟩ ∈ state.table.rows := by
  rw [runFrom_cons, Option.bind_eq_some_iff] at hrun
  obtain ⟨user, hlogin, hrest⟩ := hrun
  have huser : user.Mirrors := onLogin_mirrors hrows hlogin
  have hvalid : AllMeet step (fun _ call => call.KeyValid) user calls :=
    allMeet_of_forall (fun _ => hcalls) user
  have hstate : state.Mirrors :=
    runFrom_invariant Mirrors
      (fun _ _ _ hbefore hkey hstep => step_mirrors hkey hbefore hstep)
      hvalid hrest huser
  refine ⟨hstate.nodup, Set.ext hstate.mem, hasFavorited_iff hstate⟩

theorem isListingKey_replicate {char : Char}
    (hchar : char ∈ "0123456789abcdefABCDEF".toList) :
    IsListingKey (String.ofList (List.replicate 64 char)) := by
  constructor
  · rw [String.length_ofList, List.length_replicate]
  · intro other hother
    rw [String.toList_ofList] at hother
    rw [List.eq_of_mem_replicate hother]
    exact hchar

/-- A failed `INSERT`, one that succeeds, a failed `DELETE` and a new login. -/
theorem favorites_mirror_rows_of_failures :
    (runFrom step (closed ⟨[], List.nodup_nil⟩) [.onLogin "5A" [],
      .add (String.ofList (List.replicate 64 'a')) false,
      .add (String.ofList (List.replicate 64 'b')) true, .clear false,
      .onLogin "5A" [String.ofList (List.replicate 64 'b')]]).map
        Favorites.favorites = some [String.ofList (List.replicate 64 'b')] ∧
    ∀ state, runFrom step (closed ⟨[], List.nodup_nil⟩) [.onLogin "5A" [],
      .add (String.ofList (List.replicate 64 'a')) false,
      .add (String.ofList (List.replicate 64 'b')) true, .clear false,
      .onLogin "5A" [String.ofList (List.replicate 64 'b')]] = some state →
      state.favorites.Nodup ∧
        { listingKey | listingKey ∈ state.favorites } =
          { listingKey | ⟨state.id, listingKey⟩ ∈ state.table.rows } ∧
        ∀ listingKey, state.hasFavorited listingKey = true ↔
          ⟨state.id, listingKey⟩ ∈ state.table.rows := by
  refine ⟨by decide, fun state hrun => ?_⟩
  refine favorites_mirror_rows ?_ ?_ hrun
  · exact fun row hrow => absurd hrow List.not_mem_nil
  · simp only [List.forall_mem_cons, FavoritesCall.KeyValid, List.not_mem_nil,
      false_imp_iff, implies_true, and_true]
    exact ⟨isListingKey_replicate (by decide), isListingKey_replicate (by decide)⟩

end Favorites
end Neroshop.Market
