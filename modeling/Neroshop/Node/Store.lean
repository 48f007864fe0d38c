import Mathlib.Data.Finmap
import Neroshop.Json
import Neroshop.Timestamp

/-!
# The tables a node stores values in

A node keeps values in the in-memory table `data`, copies of local ones in the
database table `hash_table`, and search terms in the database table
`mappings`.  What the node calls outside its own code is collected in
`Externals`; what a call meets when it runs, the clock and the outcome of each
database statement, is a `Moment`.
-/

namespace Neroshop.Node

/--
How `nlohmann::json::parse` fails: on a text that is no JSON, and on a number
that no double holds.  A `catch` of `parse_error` catches the first only.
-/
inductive ParseError where
  | parseError
  | outOfRange
  deriving DecidableEq, Repr

def ParseError.fault : ParseError → Fault
  | .parseError => .parseError
  | .outOfRange => .outOfRange

/--
Library functions the node relies on.  Both Monero functions are those of the
stagenet.  Values, keys and JSON strings are UTF-8, as Protobuf requires of the
strings it delivers, so the length of a `std::string` is its number of UTF-8
bytes.
-/
structure Externals where
  parse : String → Except ParseError Json
  isValidAddress : String → Bool
  verifyMessage : (message address signature : String) → Bool

/-- `nlohmann::json::parse` where nothing catches its errors. -/
def Externals.parseOrThrow (env : Externals) (value : String) :
    Except Fault Json :=
  match env.parse value with
  | .ok json => .ok json
  | .error error => .error error.fault

/-- A parser that is asked for the listed texts only. -/
def parseListed (documents : List (String × Json)) (text : String) :
    Except ParseError Json :=
  match documents.lookup text with
  | some json => .ok json
  | none => .error .parseError

/--
Externals of a parser that is asked for the listed texts only, over which no
address is valid and no signature verifies.
-/
def Externals.ofDocuments (documents : List (String × Json)) : Externals :=
  ⟨parseListed documents, fun _ => false, fun _ _ _ => false⟩

/--
Externals of a parser that is asked for the listed texts only, with the listed
signatures as the ones that verify: of a message, by an address.
-/
def Externals.ofSignatures (documents : List (String × Json))
    (signatures : List (String × String × String)) : Externals where
  parse := parseListed documents
  isValidAddress address := signatures.any fun signed => signed.2.1 = address
  verifyMessage message address signature :=
    (message, address, signature) ∈ signatures

inductive SqlStatement where
  | selectTables
  | selectHashTable
  | selectValue
  | selectMappings
  | selectMapping
  | deleteHashTable
  | deleteMappings
  | upsertHashTable
  | insertMapping
  deriving DecidableEq, Repr

structure Moment where
  /-- `std::time(nullptr)`. -/
  clock : Int
  /-- The statement ends without an error. -/
  executes : SqlStatement → Bool

structure Mapping where
  searchTerm : String
  key : String
  content : String
  deriving DecidableEq, Repr

structure Store where
  data : Finmap fun _ : String => String
  hashTable : Finmap fun _ : String => String
  mappings : List Mapping
  deriving DecidableEq

namespace Store

def empty : Store := ⟨∅, ∅, []⟩

def rows (store : Store) (key : String) :
    Option String × Option String × List Mapping :=
  (store.data.lookup key, store.hashTable.lookup key,
    store.mappings.filter fun row => row.key = key)

def eraseData (store : Store) (key : String) : Store :=
  { store with data := store.data.erase key }

/-- `SELECT EXISTS` on the table `hash_table`; a failed one finds nothing. -/
def findsHashTable (moment : Moment) (store : Store) (key : String) : Bool :=
  moment.executes .selectHashTable && (store.hashTable.lookup key).isSome

def findsMappings (moment : Moment) (store : Store) (key : String) : Bool :=
  moment.executes .selectMappings &&
    store.mappings.any fun row => row.key = key

/-- `SELECT EXISTS`, then `DELETE`, on the table `hash_table`. -/
def deleteHashTable (moment : Moment) (store : Store) (key : String) : Store :=
  { store with
    hashTable :=
      if moment.executes .selectHashTable ∧
          (store.hashTable.lookup key).isSome ∧
          moment.executes .deleteHashTable
      then store.hashTable.erase key else store.hashTable }

def deleteMappings (moment : Moment) (store : Store) (key : String) : Store :=
  { store with
    mappings :=
      if moment.executes .selectMappings ∧
          (store.mappings.any fun row => row.key = key) ∧
          moment.executes .deleteMappings
      then store.mappings.filter fun row => row.key ≠ key
      else store.mappings }

/-- What `validate` does to the tables when the offered value has expired. -/
def discard (moment : Moment) (store : Store) (key : String) : Store :=
  deleteMappings moment (deleteHashTable moment (store.eraseData key) key) key

/-- `Node::remove`, which erases the value in memory only. -/
def remove (store : Store) (key : String) : Store := store.eraseData key

section Lemmas

variable (moment : Moment) (store : Store) (key : String)

@[simp] theorem discard_data :
    (store.discard moment key).data = store.data.erase key := rfl

@[simp] theorem discard_hashTable : (store.discard moment key).hashTable =
    (store.deleteHashTable moment key).hashTable := rfl

@[simp] theorem discard_mappings : (store.discard moment key).mappings =
    (store.deleteMappings moment key).mappings := rfl

theorem lookup_deleteHashTable (other : String) :
    (store.deleteHashTable moment key).hashTable.lookup other =
      if other = key ∧ moment.executes .selectHashTable ∧
          moment.executes .deleteHashTable
        then none else store.hashTable.lookup other := by
  unfold deleteHashTable
  by_cases hother : other = key
  · subst hother
    cases hlookup : (store.hashTable.lookup other).isSome
    · split <;> simp_all
    · split <;> simp_all
  · split <;> simp [hother, Finmap.lookup_erase_ne]

theorem filter_deleteMappings (other : String) :
    ((store.deleteMappings moment key).mappings.filter
        fun row => row.key = other) =
      if other = key ∧ moment.executes .selectMappings ∧
          moment.executes .deleteMappings
        then [] else store.mappings.filter fun row => row.key = other := by
  unfold deleteMappings
  by_cases hother : other = key
  · subst hother
    cases hany : store.mappings.any fun row => row.key = other
    · have hnone : (store.mappings.filter fun row => row.key = other) = [] := by
        simpa [List.filter_eq_nil_iff] using hany
      simp [hnone]
    · split
      · next h => simp [h.1, h.2.2, List.filter_filter]
      · next h => rw [if_neg (by simpa using h)]
  · split
    · rw [if_neg (by simp [hother]), List.filter_filter]
      refine List.filter_congr fun row _ => ?_
      by_cases hrow : row.key = other <;> simp [hrow, hother]
    · simp [hother]

theorem discard_rows_of_ne {other : String} (hne : other ≠ key) :
    (store.discard moment key).rows other = store.rows other := by
  simp [rows, lookup_deleteHashTable, filter_deleteMappings, hne,
    Finmap.lookup_erase_ne]

/--
Discarding a key removes its rows, a database row only when the statements
that look for it and delete it are executed.
-/
theorem discard_rows :
    (store.discard moment key).rows key =
      (none,
       if moment.executes .selectHashTable ∧ moment.executes .deleteHashTable
         then none else store.hashTable.lookup key,
       if moment.executes .selectMappings ∧ moment.executes .deleteMappings
         then [] else store.mappings.filter fun row => row.key = key) := by
  simp [rows, lookup_deleteHashTable, filter_deleteMappings]

end Lemmas

end Store

end Neroshop.Node
