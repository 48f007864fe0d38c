import Neroshop.Durations
import Neroshop.Foundation.Words
import Neroshop.Node.Purge
import Neroshop.Rpc.Admission

/-!
# How long a document is stored

`set_expiration` reads a number and a unit in the settings and stamps a document
with the date at which that time will have passed.  The nodes store the document
until then.
-/

namespace Neroshop.Market

open Neroshop.Foundation Neroshop.Node Neroshop.Timestamp

/-! ## The setting -/

/-- `\w`. -/
def isWordChar (symbol : Char) : Bool := symbol.isAlphanum || symbol = '_'

/-- A match of `(\d+) (\w+)` at the front of the text. -/
def matchNumberAndUnit (text : List Char) : Option (List Char × List Char) :=
  match text.dropWhile Char.isDigit with
  | ' ' :: rest =>
      if text.takeWhile Char.isDigit ≠ [] ∧ rest.takeWhile isWordChar ≠ []
      then some (text.takeWhile Char.isDigit, rest.takeWhile isWordChar)
      else none
  | _ => none

/-- `regex_search`: the first match. -/
def searchNumberAndUnit : List Char → Option (List Char × List Char)
  | [] => none
  | symbol :: text =>
      match matchNumberAndUnit (symbol :: text) with
      | some found => some found
      | none => searchNumberAndUnit text

/-- The units are plurals. -/
def unitText (word : List Char) : String :=
  if word = [] ∨ word.getLast? = some 's' then String.ofList word
  else String.ofList (word ++ ['s'])

section Setting

variable (overflowed : Nat → String → Except Fault String) (clock : Int)

def expirationOf (expiresIn : String) : Except Fault String :=
  match searchNumberAndUnit expiresIn.toList with
  | none => .error .runtimeError
  | some (numberStr, word) =>
      match Rpc.stoi (String.ofList numberStr) with
      | none => .error .outOfBounds
      | some number =>
          getUtcTimestampAfterDuration overflowed clock number.toNat (unitText word)

/-- The `expiration_date` of a new document, if it has one.  The settings are
discarded where they are not JSON. -/
def setExpiration (settings : Option Json) (metadata : String) :
    Except Fault (Option String) :=
  if metadata = "user" ∨ metadata = "seller_rating" then .ok none
  else
    match settings with
    | none =>
        if metadata = "order" then
          (getUtcTimestampAfterDuration overflowed clock 2 "years").map some
        else if metadata = "message" then
          (getUtcTimestampAfterDuration overflowed clock 30 "days").map some
        else .ok none
    | some settings => do
        let dataExpiration ← settings.index "data_expiration"
        let expiresIn ← (← dataExpiration.index metadata).getString
        if "Never".toList <:+: expiresIn.toList ∧
            (metadata = "listing" ∨ metadata = "product_rating") then
          return none
        return some (← expirationOf overflowed clock expiresIn)

end Setting

/-! ## Reading the setting -/

/-- The first number with a word behind it says so many of the unit. -/
def Spells (text : String) (number : Nat) (unit : TimeUnit) : Prop :=
  ∃ digits word, searchNumberAndUnit text.toList = some (digits, word) ∧
    Rpc.digitsValue digits = number ∧
    TimeUnit.ofText (unitText word) = some unit

/-- A number is found as it is written, and so is the word behind it. -/
theorem matchNumberAndUnit_some {text digits word : List Char}
    (h : matchNumberAndUnit text = some (digits, word)) :
    digits ≠ [] ∧ ∀ symbol ∈ digits, symbol.isDigit = true := by
  rw [matchNumberAndUnit] at h
  split at h
  case h_2 => cases h
  case h_1 =>
    split at h
    case isFalse => cases h
    case isTrue hne =>
      cases h
      exact ⟨hne.1, fun symbol hsymbol => List.mem_takeWhile_imp hsymbol⟩

theorem searchNumberAndUnit_some {text digits word : List Char}
    (h : searchNumberAndUnit text = some (digits, word)) :
    digits ≠ [] ∧ ∀ symbol ∈ digits, symbol.isDigit = true := by
  induction text with
  | nil => cases h
  | cons symbol text ih =>
      rw [searchNumberAndUnit] at h
      split at h
      case h_1 found hfound =>
        cases h
        exact matchNumberAndUnit_some hfound
      case h_2 => exact ih h

theorem isDigit_bounds {symbol : Char} (h : symbol.isDigit = true) :
    48 ≤ symbol.toNat ∧ symbol.toNat ≤ 57 := by
  rw [Char.isDigit, Bool.and_eq_true, decide_eq_true_eq, decide_eq_true_eq] at h
  exact h

/-- A number without a sign, which an `int` holds. -/
theorem stoi_digits {digits : List Char} (hdigits : digits ≠ [])
    (hdigit : ∀ symbol ∈ digits, symbol.isDigit = true)
    (h : Rpc.digitsValue digits < 2 ^ 31) :
    Rpc.stoi (String.ofList digits) = some (Rpc.digitsValue digits : Int) := by
  have htake : digits.takeWhile Char.isDigit = digits :=
    List.takeWhile_eq_self_iff.mpr hdigit
  cases digits with
  | nil => exact absurd rfl hdigits
  | cons first rest =>
      have hbounds := isDigit_bounds (hdigit first List.mem_cons_self)
      have hspace : Rpc.isSpace first = false := by
        rw [Rpc.isSpace, decide_eq_false_iff_not]
        rintro (rfl | hcontrol)
        · exact absurd hbounds.1 (by decide)
        · omega
      have hsign : Rpc.splitSign (first :: rest) = (false, first :: rest) := by
        unfold Rpc.splitSign
        split
        case h_1 hcons =>
          cases hcons
          exact absurd hbounds.1 (by decide)
        case h_2 hcons =>
          cases hcons
          exact absurd hbounds.1 (by decide)
        case h_3 => rfl
      rw [Rpc.stoi, String.toList_ofList,
        List.dropWhile_cons_of_neg (by rw [hspace]; decide), hsign]
      dsimp only
      rw [htake, if_neg hdigits, if_neg Bool.false_ne_true, if_pos (by omega)]

section Stamping

variable {overflowed : Nat → String → Except Fault String} {clock : Int}
  {number : Nat} {unit : TimeUnit}

theorem expirationOf_of_spells {text : String} (h : Spells text number unit)
    (hint : number < 2 ^ 31) :
    ∃ timeUnit, TimeUnit.ofText timeUnit = some unit ∧
      expirationOf overflowed clock text =
        getUtcTimestampAfterDuration overflowed clock number timeUnit := by
  obtain ⟨digits, word, hfound, rfl, hunit⟩ := h
  obtain ⟨hdigits, hdigit⟩ := searchNumberAndUnit_some hfound
  refine ⟨unitText word, hunit, ?_⟩
  rw [expirationOf, hfound]
  dsimp only
  rw [stoi_digits hdigits hdigit hint]
  dsimp only
  rw [Int.toNat_natCast]

/-! ## The stamp -/

/-- The settings, if there are any, ask to store such documents so long. -/
inductive Asks : Option Json → String → Nat → TimeUnit → Prop
  | order : Asks none "order" 2 .years
  | message : Asks none "message" 30 .days
  | setting {settings dataExpiration : Json} {metadata text : String}
      {number : Nat} {unit : TimeUnit}
      (stamped : metadata ≠ "user" ∧ metadata ≠ "seller_rating")
      (hsection : settings.find? "data_expiration" = some dataExpiration)
      (htext : dataExpiration.find? metadata = some (.string text))
      (hnever : ¬ ("Never".toList <:+: text.toList ∧
        (metadata = "listing" ∨ metadata = "product_rating")))
      (hspells : Spells text number unit) :
      Asks (some settings) metadata number unit

theorem setExpiration_of_asks {settings : Option Json} {metadata : String}
    (h : Asks settings metadata number unit) (hint : number < 2 ^ 31) :
    ∃ timeUnit, TimeUnit.ofText timeUnit = some unit ∧
      setExpiration overflowed clock settings metadata =
        (getUtcTimestampAfterDuration overflowed clock number timeUnit).map some := by
  cases h with
  | order => exact ⟨"years", rfl, rfl⟩
  | message => exact ⟨"days", rfl, rfl⟩
  | setting stamped hsection htext hnever hspells =>
      obtain ⟨timeUnit, hunit, hdate⟩ :=
        @expirationOf_of_spells overflowed clock _ _ _ hspells hint
      refine ⟨timeUnit, hunit, ?_⟩
      rw [setExpiration, if_neg (not_or.mpr stamped)]
      change Except.bind (Json.index _ "data_expiration") _ = _
      rw [Json.index_of_find? hsection]
      change Except.bind (Json.index _ metadata) _ = _
      rw [Json.index_of_find? htext]
      change (if _ then _ else _) = _
      rw [if_neg hnever]
      change Except.bind (expirationOf overflowed clock _) _ = _
      rw [hdate]
      rfl

/-- What `validate` and `expire` do at any node with documents of these members
before that time, and from it on. -/
structure StoredUntil (env : Externals) (ending : Int) (json : Json) : Prop where
  accepted : ∀ key value moment store,
    validateDocument env key value = .ok (some json) → moment.clock < ending →
      validate env moment store key value = (.ok true, store)
  rejected : ∀ key value moment store,
    validateDocument env key value = .ok (some json) → ending ≤ moment.clock →
      validate env moment store key value = (.ok false, store.discard moment key)
  kept : ∀ key value moment tables, env.parse value = .ok json →
    moment.clock < ending → expire env moment tables key value = .ok tables
  removed : ∀ key value moment tables, env.parse value = .ok json →
    ending ≤ moment.clock → tables.data.lookup key = some value →
      ∃ after, expire env moment tables key value = .ok after ∧
        after.data = tables.data.erase key ∧
        (moment.executes .deleteMappings → moment.executes .deleteHashTable →
          after.rows key = (none, none, []))

theorem expiry_stamped (later : Int) (json : Json) (text : String) :
    expiry later (json.setMember "expiration_date" (.string text)) =
      if isExpired later text = true then .expired else .current := by
  rw [expiry, Json.find?_setMember, if_pos rfl]

theorem storedUntil_of_isExpired {ending : Int} {text : String}
    (h : ∀ later, isExpired later text = true ↔ ending ≤ later) (env : Externals)
    (json : Json) :
    StoredUntil env ending (json.setMember "expiration_date" (.string text)) where
  accepted key value moment store hvalid hbefore := by
    have hcurrent : ¬ isExpired moment.clock text = true := by
      rw [h]
      omega
    rw [validate, hvalid]
    dsimp only
    rw [expiry_stamped, if_neg hcurrent]
  rejected key value moment store hvalid hafter := by
    rw [validate, hvalid]
    dsimp only
    rw [expiry_stamped, if_pos ((h _).mpr hafter)]
  kept key value moment tables hparse hbefore := by
    have hcurrent : ¬ isExpired moment.clock text = true := by
      rw [h]
      omega
    rw [expire, hparse]
    dsimp only
    rw [expiry_stamped, if_neg hcurrent]
  removed key value moment tables hparse hafter hstored := by
    refine ⟨removeExpired moment tables key, ?_, data_removeExpired,
      rows_removeExpired⟩
    rw [expire, hparse]
    dsimp only
    rw [expiry_stamped, if_pos ((h _).mpr hafter)]
    dsimp only
    rw [hstored, Option.isSome_some, if_pos rfl]

end Stamping

/-- With a number in front that no blank follows. -/
def monthSettings : Json :=
  .object [("data_expiration", .object [("listing", .string "2x 30 day")])]

end Neroshop.Market
