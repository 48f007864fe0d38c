import Mathlib.Data.Rat.Floor

/-!
# JSON values as the node reads them

The node reads documents through `nlohmann::json`.  This file has the value
type and the accessors the node uses, with the way each of them fails:
`operator[]` inserts a null on a mutable object but asserts on a constant one,
and `get` throws on a value of another type.
-/

namespace Neroshop

inductive Fault where
  | parseError
  | typeError
  /-- `json::out_of_range`, of a number that no double holds. -/
  | outOfRange
  /-- `operator[]` of a constant object without the field. -/
  | absentField
  | invalidArgument
  | runtimeError
  | outOfBounds
  | lengthError
  | assertionFailed
  deriving DecidableEq, Repr

inductive Json where
  | null
  | boolean (value : Bool)
  | integer (value : Int)
  | unsigned (value : Nat)
  | float (value : ℚ)
  | string (value : String)
  | array (elements : List Json)
  | object (members : List (String × Json))

namespace Json

def isObject : Json → Bool
  | .object _ => true
  | _ => false

def isString : Json → Bool
  | .string _ => true
  | _ => false

def find? : Json → String → Option Json
  | .object members, name => members.lookup name
  | _, _ => none

def contains (json : Json) (name : String) : Bool :=
  (json.find? name).isSome

/--
`operator[]` on a mutable value.  A missing member is inserted as null, and a
null value becomes an object first.
-/
def index (json : Json) (name : String) : Except Fault Json :=
  match json with
  | .object members => .ok ((members.lookup name).getD .null)
  | .null => .ok .null
  | _ => .error .typeError

/-- `operator[]` on a constant value, which asserts that the member exists. -/
def indexConst (json : Json) (name : String) : Except Fault Json :=
  match json with
  | .object members =>
      match members.lookup name with
      | some value => .ok value
      | none => .error .absentField
  | _ => .error .typeError

def getString : Json → Except Fault String
  | .string value => .ok value
  | _ => .error .typeError

def truncate (value : ℚ) : Int :=
  if 0 ≤ value then value.floor else -(-value).floor

/--
`static_cast<int>` of a floating-point number.  Out of range it is undefined
in C++; x86-64 yields the smallest `int`.
-/
def intOfFloat (value : ℚ) : Int :=
  if -2 ^ 31 ≤ truncate value ∧ truncate value < 2 ^ 31
  then truncate value else -2 ^ 31

/-- `get<int>`: every arithmetic value converts, booleans included. -/
def getInt : Json → Except Fault Int
  | .unsigned value => .ok (Int.bmod value (2 ^ 32))
  | .integer value => .ok (Int.bmod value (2 ^ 32))
  | .float value => .ok (intOfFloat value)
  | .boolean value => .ok value.toNat
  | _ => .error .typeError

/--
`get<double>`: numbers convert, booleans do not.  The conversion of an integer
is exact up to 2^53.
-/
def getDouble (toDouble : Int → ℚ) : Json → Except Fault ℚ
  | .unsigned value => .ok (toDouble value)
  | .integer value => .ok (toDouble value)
  | .float value => .ok value
  | _ => .error .typeError

def string? (json : Json) (name : String) : Option String :=
  match json.find? name with
  | some (.string value) => some value
  | _ => none

/-- `json[name] = value` on an object or on null, which becomes an object. -/
def setMember (json : Json) (name : String) (value : Json) : Json :=
  match json with
  | .object members =>
      .object ((name, value) :: members.filter fun member => member.1 ≠ name)
  | _ => .object [(name, value)]

/-- The members that have a value. -/
def present : List (String × Option Json) → List (String × Json)
  | [] => []
  | (_, none) :: fields => present fields
  | (name, some value) :: fields => (name, value) :: present fields

def ofFields (fields : List (String × Option Json)) : Json :=
  .object (present fields)

theorem contains_eq_true {json : Json} {name : String} :
    json.contains name = true ↔ ∃ value, json.find? name = some value := by
  simp [contains, Option.isSome_iff_exists]

theorem contains_eq_false {json : Json} {name : String} :
    json.contains name = false ↔ json.find? name = none := by
  simp [contains]

theorem isObject_eq_true {json : Json} :
    json.isObject = true ↔ ∃ members, json = .object members := by
  cases json <;> simp [isObject]

theorem index_of_isObject {json : Json} (h : json.isObject = true)
    (name : String) : json.index name = .ok ((json.find? name).getD .null) := by
  obtain ⟨members, rfl⟩ := isObject_eq_true.mp h
  rfl

theorem indexConst_of_isObject {json : Json} (h : json.isObject = true)
    (name : String) :
    json.indexConst name =
      match json.find? name with
      | some value => .ok value
      | none => .error .absentField := by
  obtain ⟨members, rfl⟩ := isObject_eq_true.mp h
  rfl

theorem string?_eq_some {json : Json} {name value : String} :
    json.string? name = some value ↔
      json.find? name = some (.string value) := by
  unfold string?
  split <;> simp_all

theorem isObject_of_string? {json : Json} {name value : String}
    (h : json.string? name = some value) : json.isObject = true := by
  rw [string?_eq_some] at h
  cases json with
  | object => rfl
  | _ => cases h

theorem isString_getD_find? (json : Json) (name : String) :
    ((json.find? name).getD .null).isString = (json.string? name).isSome := by
  unfold string?
  cases json.find? name with
  | none => rfl
  | some value => cases value <;> rfl

theorem getString_getD_find? (json : Json) (name : String) :
    ((json.find? name).getD .null).getString =
      match json.string? name with
      | some value => .ok value
      | none => .error .typeError := by
  unfold string?
  cases json.find? name with
  | none => rfl
  | some value => cases value <;> rfl

theorem contains_of_string? {json : Json} {name value : String}
    (h : json.string? name = some value) : json.contains name = true :=
  contains_eq_true.mpr ⟨_, string?_eq_some.mp h⟩

theorem isObject_of_contains {json : Json} {name : String}
    (h : json.contains name = true) : json.isObject = true := by
  obtain ⟨member, hmember⟩ := contains_eq_true.mp h
  cases json with
  | object members => rfl
  | _ => cases hmember

theorem lookup_filter_ne {members : List (String × Json)}
    {name other : String} (hother : other ≠ name) :
    (members.filter fun member => member.1 ≠ name).lookup other =
      members.lookup other := by
  induction members with
  | nil => rfl
  | cons member members ih =>
      obtain ⟨first, value⟩ := member
      by_cases hfirst : first = name
      · subst hfirst
        have hne : (other == first) = false := by simpa using hother
        simpa [List.lookup_cons, hne] using ih
      · simp only [List.filter_cons, List.lookup_cons, ne_eq, hfirst,
          not_false_eq_true, decide_true, if_true]
        cases other == first with
        | true => rfl
        | false => simpa using ih

@[simp] theorem find?_setMember (json : Json) (name : String) (value : Json)
    (other : String) :
    (json.setMember name value).find? other =
      if other = name then some value else json.find? other := by
  by_cases hother : other = name
  · subst hother
    cases json <;> simp [setMember, find?]
  · have hne : (other == name) = false := by simpa using hother
    rw [if_neg hother]
    cases json with
    | object members =>
        simp only [setMember, find?, List.lookup_cons, hne]
        exact lookup_filter_ne hother
    | _ => simp [setMember, find?, List.lookup_cons, hne]

theorem lookup_present_of_notMem {fields : List (String × Option Json)}
    {name : String} (h : name ∉ fields.map Prod.fst) :
    (present fields).lookup name = none := by
  induction fields with
  | nil => rfl
  | cons field fields ih =>
      obtain ⟨first, value⟩ := field
      rw [List.map_cons, List.mem_cons, not_or] at h
      have hne : (name == first) = false := by simpa using h.1
      cases value with
      | none => exact ih h.2
      | some value =>
          rw [present, List.lookup_cons, hne]
          exact ih h.2

theorem find?_ofFields {fields : List (String × Option Json)}
    (hnames : (fields.map Prod.fst).Nodup) (name : String) :
    (ofFields fields).find? name = (fields.lookup name).join := by
  rw [ofFields, find?]
  induction fields with
  | nil => rfl
  | cons field fields ih =>
      obtain ⟨first, value⟩ := field
      rw [List.map_cons, List.nodup_cons] at hnames
      by_cases hname : name = first
      · subst hname
        rw [List.lookup_cons_self]
        cases value with
        | none =>
            have hnone : (present fields).lookup name = none :=
              lookup_present_of_notMem hnames.1
            exact hnone
        | some value => exact List.lookup_cons_self
      · have hne : (name == first) = false := by simpa using hname
        rw [List.lookup_cons, hne]
        cases value with
        | none => exact ih hnames.2
        | some value =>
            rw [present, List.lookup_cons, hne]
            exact ih hnames.2

theorem index_of_find? {json value : Json} {name : String}
    (h : json.find? name = some value) : json.index name = .ok value := by
  have hobject := isObject_of_contains (contains_eq_true.mpr ⟨value, h⟩)
  rw [index_of_isObject hobject, h, Option.getD_some]

theorem indexConst_of_find? {json value : Json} {name : String}
    (h : json.find? name = some value) : json.indexConst name = .ok value := by
  have hobject := isObject_of_contains (contains_eq_true.mpr ⟨value, h⟩)
  rw [indexConst_of_isObject hobject, h]

theorem index_ofFields {fields : List (String × Option Json)}
    (hnames : (fields.map Prod.fst).Nodup) {name : String} {value : Json}
    (hlookup : fields.lookup name = some (some value)) :
    (ofFields fields).index name = .ok value := by
  have hfind : (ofFields fields).find? name = some value := by
    rw [find?_ofFields hnames, hlookup, Option.join_some]
  exact index_of_find? hfind

end Json

end Neroshop
