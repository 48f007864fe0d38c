import Neroshop.Foundation.Effects
import Neroshop.Json

/-!
# Fetching the members of a document

`get` throws on a member that is missing or of another type.  For every
accessor the lemmas say for which members it yields a value.
-/

namespace Neroshop

open Neroshop.Foundation

/-- `json[name].get<std::string>()`. -/
def fetchString (json : Json) (name : String) : Except Fault String := do
  (← json.index name).getString

def fetchInt (json : Json) (name : String) : Except Fault Int := do
  (← json.index name).getInt

def fetchDouble (toDouble : Int → ℚ) (json : Json) (name : String) :
    Except Fault ℚ := do
  (← json.index name).getDouble toDouble

/-- The same on a constant object. -/
def fetchConstString (json : Json) (name : String) : Except Fault String := do
  (← json.indexConst name).getString

def fetchConstInt (json : Json) (name : String) : Except Fault Int := do
  (← json.indexConst name).getInt

def assertThat (condition : Bool) : Except Fault Unit :=
  if condition then .ok () else .error .assertionFailed

def Has (json : Json) (name : String) (test : Json → Bool) : Prop :=
  ∃ member, json.find? name = some member ∧ test member = true

def isNumber : Json → Bool
  | .unsigned _ | .integer _ | .float _ => true
  | _ => false

def isArithmetic : Json → Bool
  | .unsigned _ | .integer _ | .float _ | .boolean _ => true
  | _ => false

section Members

variable {json : Json} {name : String}

theorem yields_getString : Yields json.getString ↔ json.isString = true := by
  cases json <;> simp [Json.getString, Json.isString]

theorem yields_getInt : Yields json.getInt ↔ isArithmetic json = true := by
  cases json <;> simp [Json.getInt, isArithmetic]

theorem yields_getDouble (toDouble : Int → ℚ) :
    Yields (json.getDouble toDouble) ↔ isNumber json = true := by
  cases json <;> simp [Json.getDouble, isNumber]

/-- A missing member is null, which no accessor takes. -/
theorem yields_index {α : Type} {get : Json → Except Fault α}
    {test : Json → Bool} (hobject : json.isObject = true)
    (hget : ∀ member, Yields (get member) ↔ test member = true)
    (hnull : test .null = false) :
    Yields (json.index name >>= get) ↔ Has json name test := by
  rw [Json.index_of_isObject hobject, yields_bind]
  simp only [Except.ok.injEq, exists_eq_left', hget, Has]
  cases json.find? name with
  | none => simp [hnull]
  | some member => simp

theorem yields_indexConst {α : Type} {get : Json → Except Fault α}
    {test : Json → Bool} (hobject : json.isObject = true)
    (hget : ∀ member, Yields (get member) ↔ test member = true) :
    Yields (json.indexConst name >>= get) ↔ Has json name test := by
  rw [Json.indexConst_of_isObject hobject, yields_bind]
  simp only [Has]
  cases json.find? name with
  | none => simp
  | some member => simp [hget]

theorem yields_fetchString (hobject : json.isObject = true) :
    Yields (fetchString json name) ↔ Has json name Json.isString :=
  yields_index hobject (fun _ => yields_getString) rfl

theorem yields_fetchInt (hobject : json.isObject = true) :
    Yields (fetchInt json name) ↔ Has json name isArithmetic :=
  yields_index hobject (fun _ => yields_getInt) rfl

theorem yields_fetchDouble {toDouble : Int → ℚ}
    (hobject : json.isObject = true) :
    Yields (fetchDouble toDouble json name) ↔ Has json name isNumber :=
  yields_index hobject (fun _ => yields_getDouble toDouble) rfl

theorem yields_fetchConstString (hobject : json.isObject = true) :
    Yields (fetchConstString json name) ↔ Has json name Json.isString :=
  yields_indexConst hobject fun _ => yields_getString

theorem yields_fetchConstInt (hobject : json.isObject = true) :
    Yields (fetchConstInt json name) ↔ Has json name isArithmetic :=
  yields_indexConst hobject fun _ => yields_getInt

@[simp] theorem yields_assertThat {condition : Bool} :
    Yields (assertThat condition) ↔ condition = true := by
  cases condition <;> simp [assertThat]

theorem has_isString :
    Has json name Json.isString ↔ ∃ text, json.string? name = some text := by
  simp only [Has, Json.string?_eq_some]
  constructor
  · rintro ⟨member, hfind, hstring⟩
    cases member with
    | string text => exact ⟨text, hfind⟩
    | _ => cases hstring
  · rintro ⟨text, hfind⟩
    exact ⟨.string text, hfind, rfl⟩

theorem fetchString_eq_ok {text : String}
    (hobject : json.isObject = true) :
    fetchString json name = .ok text ↔ json.string? name = some text := by
  rw [fetchString, Json.index_of_isObject hobject]
  change ((json.find? name).getD .null).getString = .ok text ↔ _
  rw [Json.getString_getD_find?]
  cases json.string? name <;> simp

end Members

theorem fetchString_ofFields {fields : List (String × Option Json)}
    (hnames : (fields.map Prod.fst).Nodup) {name text : String}
    (hlookup : fields.lookup name = some (some (.string text))) :
    fetchString (.ofFields fields) name = .ok text := by
  rw [fetchString, Json.index_ofFields hnames hlookup]
  rfl

theorem fetchDouble_ofFields {fields : List (String × Option Json)}
    (hnames : (fields.map Prod.fst).Nodup) {name : String} {number : ℚ}
    (hlookup : fields.lookup name = some (some (.float number)))
    (toDouble : Int → ℚ) :
    fetchDouble toDouble (.ofFields fields) name = .ok number := by
  rw [fetchDouble, Json.index_ofFields hnames hlookup]
  rfl

theorem fetchConstString_ofFields {fields : List (String × Option Json)}
    (hnames : (fields.map Prod.fst).Nodup) {name text : String}
    (hlookup : fields.lookup name = some (some (.string text))) :
    fetchConstString (.ofFields fields) name = .ok text := by
  have hfind : (Json.ofFields fields).find? name = some (.string text) := by
    rw [Json.find?_ofFields hnames, hlookup, Option.join_some]
  rw [fetchConstString, Json.indexConst_of_find? hfind]
  rfl

end Neroshop
