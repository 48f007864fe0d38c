import Neroshop.Foundation.Calendar
import Neroshop.Foundation.Numerals
import Neroshop.Timestamp

/-!
# The order of instants

Neither `is_expired` nor `get_most_recent_timestamp` asks whether `get_time` has
failed.  Of any text they compare the instant that the front of it spells, where
midnight of the day before the year 1900 stands for what is missing.
-/

namespace Neroshop.Timestamp

open Neroshop.Foundation

/-! ## What the texts say -/

def secondsOf (year month day hour minute second : Nat) : Int :=
  dayNumber year month day * 86400 + hour * 3600 + minute * 60 + second

/-- What a text of the form "YYYY-MM-DDTHH:MM:SSZ" is written from. -/
structure DateTime where
  year : Nat
  month : Nat
  day : Nat
  hour : Nat
  minute : Nat
  second : Nat
  year_le : year ≤ 9999
  month_range : 1 ≤ month ∧ month ≤ 12
  day_range : 1 ≤ day ∧ day ≤ 31
  hour_le : hour ≤ 23
  minute_le : minute ≤ 59
  /-- 60 in a minute that ends with a leap second. -/
  second_le : second ≤ 60

def DateTime.symbols (date : DateTime) : List Char :=
  numeral 4 date.year ++ '-' :: (numeral 2 date.month ++ '-' ::
    (numeral 2 date.day ++ 'T' :: (numeral 2 date.hour ++ ':' ::
      (numeral 2 date.minute ++ ':' :: (numeral 2 date.second ++ ['Z'])))))

def DateTime.text (date : DateTime) : String := String.ofList date.symbols

def DateTime.seconds (date : DateTime) : Int :=
  secondsOf date.year date.month date.day date.hour date.minute date.second

def IsDateTime (text : String) : Prop := ∃ date : DateTime, text = date.text

/-- The number in front of a text, if it is one of the field. -/
def spelledNumber (field : Field) (text : List Char) :
    Option (Nat × List Char) :=
  let (low, high, width) := field.range
  let digits := leadingDigits width text
  let value := decimalFrom 0 digits
  if digits ≠ [] ∧ low ≤ value ∧ value ≤ high then
    some (value, text.drop digits.length)
  else none

/-- The fields, each with the symbol behind it. -/
def separated : List (Field × Char) :=
  [(.year, '-'), (.month, '-'), (.day, 'T'), (.hour, ':'), (.minute, ':'),
   (.second, 'Z')]

/--
The fields that the front of a text spells, as far as it goes: a separator may
be written in either case, and a blank may stand before the day.
-/
def spelled : List (Field × Char) → List Char → List (Field × Nat)
  | [], _ => []
  | (field, separator) :: fields, text =>
      match spelledNumber field (field.afterBlank text) with
      | none => []
      | some (value, rest) =>
          (field, value) ::
            if rest.head?.any (sameLetter · separator) then
              spelled fields rest.tail
            else []

/-- The instant of what the front of a text spells. -/
def frontSeconds (text : String) : Int :=
  let front := spelled separated (text.toList.dropWhile isSpace)
  let part field missing := (front.lookup field).getD missing
  secondsOf (part .year 1900) (part .month 1) (part .day 0) (part .hour 0)
    (part .minute 0) (part .second 0)

structure OrdersInstants (clock : Int) (timestamp1 timestamp2 : String) :
    Prop where
  expired : ∀ date : DateTime, timestamp1 = date.text →
    (isExpired clock timestamp1 = true ↔ date.seconds ≤ clock)
  expiredOtherwise : ¬ IsDateTime timestamp1 → isExpired clock timestamp1 = true
  later : ∀ date1 date2 : DateTime, timestamp1 = date1.text →
    timestamp2 = date2.text →
    getMostRecentTimestamp timestamp1 timestamp2 =
      if date2.seconds < date1.seconds then timestamp1 else timestamp2
  first : IsDateTime timestamp1 → ¬ IsDateTime timestamp2 →
    getMostRecentTimestamp timestamp1 timestamp2 = timestamp1
  second : ¬ IsDateTime timestamp1 → IsDateTime timestamp2 →
    getMostRecentTimestamp timestamp1 timestamp2 = timestamp2

/-- What the front of a text of another form spells is early enough. -/
structure FrontsAreEarly (clock : Int) (timestamp1 timestamp2 : String) :
    Prop where
  clock : ¬ IsDateTime timestamp1 → frontSeconds timestamp1 ≤ clock
  first : ¬ IsDateTime timestamp1 → IsDateTime timestamp2 →
    frontSeconds timestamp1 ≤ frontSeconds timestamp2
  second : IsDateTime timestamp1 → ¬ IsDateTime timestamp2 →
    frontSeconds timestamp2 < frontSeconds timestamp1

/-! ## The numbers -/

theorem readDigits_of_le {high width value count : Nat} {text : List Char}
    (h : decimalFrom value (leadingDigits width text) ≤ high) :
    readDigits high width value count text =
      (decimalFrom value (leadingDigits width text),
        count + (leadingDigits width text).length,
        text.drop (leadingDigits width text).length) := by
  induction width generalizing value count text with
  | zero => rfl
  | succ width ih =>
      cases text with
      | nil => rfl
      | cons symbol text =>
          rw [leadingDigits_cons] at h ⊢
          rw [readDigits]
          split
          · rename_i hdigit
            rw [if_pos hdigit] at h
            have hnext := le_decimalFrom
              (value * 10 + (symbol.toNat - '0'.toNat))
              (leadingDigits width text)
            have hle : decimalFrom (value * 10 + (symbol.toNat - '0'.toNat))
                (leadingDigits width text) ≤ high := h
            dsimp only
            rw [if_neg (by omega), ih hle, List.length_cons, List.drop_succ_cons]
            refine Prod.ext rfl (Prod.ext ?_ rfl)
            change count + 1 + _ = count + (_ + 1)
            omega
          · rfl

/-- A number that is too large is still so where the reading stops. -/
theorem readDigits_of_lt (count : Nat) {high width value : Nat}
    {text : List Char}
    (h : high < decimalFrom value (leadingDigits width text)) :
    high < (readDigits high width value count text).1 := by
  induction width generalizing value count text with
  | zero => exact h
  | succ width ih =>
      cases text with
      | nil => exact h
      | cons symbol text =>
          rw [leadingDigits_cons] at h
          rw [readDigits]
          split
          · rename_i hdigit
            rw [if_pos hdigit] at h
            dsimp only
            split
            · assumption
            · exact ih _ h
          · rename_i hdigit
            rw [if_neg hdigit] at h
            exact h

theorem extractNum_of_some {field : Field} {text rest : List Char}
    {value : Nat} (h : spelledNumber field text = some (value, rest)) :
    extractNum field text = (some value, rest) := by
  rcases hrange : field.range with ⟨low, high, width⟩
  simp only [spelledNumber, hrange] at h
  split at h
  · rename_i hnumber
    obtain ⟨hdigits, hlow, hhigh⟩ := hnumber
    cases h
    have hpos := List.length_pos_iff.mpr hdigits
    simp only [extractNum, hrange, readDigits_of_le hhigh]
    rw [if_pos ⟨by omega, hlow, hhigh⟩]
  · cases h

theorem extractNum_of_none {field : Field} {text : List Char}
    (h : spelledNumber field text = none) : (extractNum field text).1 = none := by
  rcases hrange : field.range with ⟨low, high, width⟩
  simp only [spelledNumber, hrange] at h
  split at h
  · cases h
  · rename_i hnumber
    simp only [extractNum, hrange]
    by_cases hhigh : decimalFrom 0 (leadingDigits width text) ≤ high
    · rw [readDigits_of_le hhigh]
      refine if_neg fun hread => hnumber ⟨?_, hread.2.1, hhigh⟩
      intro hnil
      rw [hnil] at hread
      exact absurd hread.1 (Nat.lt_irrefl 0)
    · refine if_neg fun hread => ?_
      have hlt := readDigits_of_lt 0 (Nat.not_le.mp hhigh)
      omega

/-! ## The fields -/

def Field.get (tm : Tm) : Field → Int
  | .year => tm.year
  | .month => tm.month
  | .day => tm.day
  | .hour => tm.hour
  | .minute => tm.minute
  | .second => tm.second

theorem Field.get_assign (tm : Tm) (value : Nat) (field other : Field) :
    other.get (field.assign tm value) =
      if field = other then (value : Int) else other.get tm := by
  cases field <;> cases other <;> rfl

def assignAll (tm : Tm) (front : List (Field × Nat)) : Tm :=
  front.foldl (fun tm part => part.1.assign tm part.2) tm

theorem get_assignAll {front : List (Field × Nat)}
    (hfields : (front.map Prod.fst).Nodup) (tm : Tm) (field : Field) :
    field.get (assignAll tm front) =
      (front.lookup field).elim (field.get tm) Nat.cast := by
  induction front generalizing tm with
  | nil => rfl
  | cons part front ih =>
      obtain ⟨other, value⟩ := part
      rw [List.map_cons, List.nodup_cons] at hfields
      rw [List.lookup_cons]
      change field.get (assignAll (other.assign tm value) front) = _
      rw [ih hfields.2, Field.get_assign]
      by_cases h : other = field
      · subst h
        have hnone : front.lookup other = none := by
          rw [List.lookup_eq_none_iff]
          intro part hpart
          have hne : part.1 ≠ other := by
            rintro rfl
            exact hfields.1 (List.mem_map.mpr ⟨part, hpart, rfl⟩)
          simpa using hne.symm
        rw [hnone, if_pos rfl, beq_self_eq_true]
        rfl
      · have hbeq : (field == other) = false := by
          simpa using Ne.symm h
        rw [if_neg h, hbeq]

theorem spelled_fields (fields : List (Field × Char)) (text : List Char) :
    (spelled fields text).map Prod.fst <+: fields.map Prod.fst := by
  induction fields generalizing text with
  | nil => exact List.prefix_rfl
  | cons entry fields ih =>
      obtain ⟨field, separator⟩ := entry
      rw [spelled]
      cases spelledNumber field (field.afterBlank text) with
      | none => exact List.nil_prefix
      | some number =>
          refine List.cons_prefix_cons.mpr ⟨rfl, ?_⟩
          split
          · exact ih _
          · exact List.nil_prefix

def directives (fields : List (Field × Char)) : List Directive :=
  fields.flatMap fun (field, separator) => [.number field, .literal separator]

theorem spelledNumber_nil (field : Field) : spelledNumber field [] = none := by
  rw [spelledNumber]
  exact if_neg fun h => h.1 (by cases field <;> rfl)

theorem Field.afterBlank_nil (field : Field) : field.afterBlank [] = [] := by
  cases field <;> rfl

/-- `get_time` follows the format as far as the text spells it. -/
theorem getTimeFrom_directives (fields : List (Field × Char)) (tm : Tm)
    (text : List Char) :
    getTimeFrom (directives fields) tm text =
      assignAll tm (spelled fields text) := by
  induction fields generalizing tm text with
  | nil => rfl
  | cons entry fields ih =>
      obtain ⟨field, separator⟩ := entry
      change getTimeFrom (.number field :: .literal separator ::
        directives fields) tm text = _
      rw [spelled]
      cases hnumber : spelledNumber field (field.afterBlank text) with
      | none =>
          have hnone := extractNum_of_none hnumber
          cases text with
          | nil => rfl
          | cons head text =>
              rw [getTimeFrom]
              split
              · rename_i hextract
                rw [hextract] at hnone
                cases hnone
              · rfl
      | some number =>
          obtain ⟨value, rest⟩ := number
          have hextract := extractNum_of_some hnumber
          cases text with
          | nil =>
              rw [field.afterBlank_nil, spelledNumber_nil] at hnumber
              cases hnumber
          | cons head text =>
              rw [getTimeFrom, hextract]
              change getTimeFrom _ (field.assign tm value) rest =
                assignAll (field.assign tm value) _
              cases rest with
              | nil => rfl
              | cons symbol rest =>
                  rw [getTimeFrom]
                  change _ = assignAll (field.assign tm value)
                    (if sameLetter symbol separator then spelled fields rest
                      else [])
                  split
                  · exact ih _ rest
                  · rfl

/-! ## The instant -/

theorem isLeap_iff (year : Nat) : isLeap year = true ↔ IsLeapYear year := by
  simp only [isLeap, IsLeapYear, decide_eq_true_eq]
  omega

theorem daysInMonth_eq (year month : Nat) :
    daysInMonth year month = monthLength year month := by
  rw [monthLength]
  by_cases htwo : month = 2
  · subst htwo
    rw [if_pos rfl]
    change (if isLeap year then (29 : Int) else 28) = _
    by_cases hleap : IsLeapYear year
    · rw [if_pos hleap, if_pos ((isLeap_iff year).mpr hleap)]
      rfl
    · rw [if_neg hleap, if_neg (mt (isLeap_iff year).mp hleap)]
      rfl
  rw [if_neg htwo]
  by_cases hshort : month ∈ [4, 6, 9, 11]
  · rw [if_pos hshort]
    simp only [List.mem_cons, List.not_mem_nil, or_false] at hshort
    rcases hshort with rfl | rfl | rfl | rfl <;> rfl
  · rw [if_neg hshort, daysInMonth]
    · rfl
    all_goals grind

theorem daysBeforeMonth_eq (year month : Nat) :
    daysBeforeMonth year month = daysUpTo year month := by
  induction month with
  | zero => rfl
  | succ month ih =>
      cases month with
      | zero => rfl
      | succ month =>
          rw [daysBeforeMonth, ih, daysInMonth_eq,
            daysUpTo_succ year (Nat.succ_ne_zero month), Nat.cast_add]
          exact Nat.succ_ne_zero month

/-- The year zero is one of 366 days. -/
theorem daysBeforeYear_eq (year : Nat) :
    daysBeforeYear year = daysBefore year - 366 := by
  rw [daysBeforeYear, daysBefore_eq]
  omega

theorem mktime_eq (year month day hour minute second : Nat) :
    mktime ⟨year, month, day, hour, minute, second⟩ =
      secondsOf year month day hour minute second := by
  have hepoch : daysBefore 1970 = 719528 := by
    rw [daysBefore_eq]
  simp only [mktime, secondsOf, dayNumber, Int.toNat_natCast,
    daysBeforeMonth_eq, daysBeforeYear_eq, hepoch]
  omega

theorem getTime_eq (text : String) :
    getTime text =
      assignAll {} (spelled separated (text.toList.dropWhile isSpace)) :=
  getTimeFrom_directives separated {} _

/-- The instant of any text, whether or not it is a date. -/
theorem instant_eq (text : String) : instant text = frontSeconds text := by
  have hnodup : ((spelled separated
      (text.toList.dropWhile isSpace)).map Prod.fst).Nodup := by
    have hall : (separated.map Prod.fst).Nodup := by decide
    exact (spelled_fields _ _).sublist.nodup hall
  have hget (field : Field) (missing : Nat)
      (hmissing : field.get {} = missing) :
      field.get (getTime text) = ((((spelled separated
        (text.toList.dropWhile isSpace)).lookup field).getD missing : Nat) :
          Int) := by
    rw [getTime_eq, get_assignAll hnodup, hmissing]
    cases (spelled separated _).lookup field <;> rfl
  rw [frontSeconds, ← mktime_eq, ← hget .year 1900 rfl, ← hget .month 1 rfl,
    ← hget .day 0 rfl, ← hget .hour 0 rfl, ← hget .minute 0 rfl,
    ← hget .second 0 rfl]
  rfl

/-! ## Dates -/

theorem lt_pow_of_le_range {field : Field} {number : Nat}
    (h : number ≤ field.range.2.1) : number < 10 ^ field.range.2.2 := by
  cases field <;> simp only [Field.range] at h ⊢ <;> omega

theorem Field.width_pos (field : Field) : 0 < field.range.2.2 := by
  cases field <;> decide

theorem spelledNumber_numeral {field : Field} {number : Nat}
    (rest : List Char) (hlow : field.range.1 ≤ number)
    (hhigh : number ≤ field.range.2.1) :
    spelledNumber field (numeral field.range.2.2 number ++ rest) =
      some (number, rest) := by
  have hlt := lt_pow_of_le_range hhigh
  have hpos := field.width_pos
  rcases hrange : field.range with ⟨low, high, width⟩
  simp only [hrange] at hlow hhigh hlt hpos
  simp only [spelledNumber, hrange, leadingDigits_numeral,
    decimalFrom_numeral hlt, List.drop_left]
  refine if_pos ⟨?_, hlow, hhigh⟩
  apply List.ne_nil_of_length_pos
  rwa [length_numeral]

theorem isSpace_of_isDigit {symbol : Char} (h : symbol.isDigit = true) :
    isSpace symbol = false := by
  rw [isSpace, decide_eq_false_iff_not]
  intro hmem
  simp only [List.mem_cons, List.not_mem_nil, or_false] at hmem
  rcases hmem with rfl | rfl | rfl | rfl | rfl | rfl <;>
    exact absurd h (by decide)

/-- No blank stands before a numeral. -/
theorem Field.afterBlank_numeral (field : Field) {width : Nat}
    (hwidth : 0 < width) (number : Nat) (rest : List Char) :
    field.afterBlank (numeral width number ++ rest) =
      numeral width number ++ rest := by
  have hlength := length_numeral width number
  have hdigit (symbol : Char) (h : symbol ∈ numeral width number) :=
    isSpace_of_isDigit (isDigit_of_mem_numeral h)
  generalize numeral width number = digits at hlength hdigit
  cases digits with
  | nil => exact absurd hlength hwidth.ne
  | cons symbol digits =>
      cases field with
      | day => exact if_neg (by rw [hdigit symbol List.mem_cons_self]; decide)
      | _ => rfl

theorem spelled_numeral {field : Field} {number : Nat} (separator : Char)
    (fields : List (Field × Char)) (rest : List Char)
    (hlow : field.range.1 ≤ number) (hhigh : number ≤ field.range.2.1) :
    spelled ((field, separator) :: fields)
        (numeral field.range.2.2 number ++ separator :: rest) =
      (field, number) :: spelled fields rest := by
  rw [spelled, field.afterBlank_numeral field.width_pos,
    spelledNumber_numeral (separator :: rest) hlow hhigh]
  exact congrArg _ (if_pos (decide_eq_true rfl))

theorem dropWhile_isSpace_numeral {width : Nat} (hwidth : 0 < width)
    (number : Nat) (rest : List Char) :
    (numeral width number ++ rest).dropWhile isSpace =
      numeral width number ++ rest := by
  have hlength := length_numeral width number
  have hdigit (symbol : Char) (h : symbol ∈ numeral width number) :=
    isSpace_of_isDigit (isDigit_of_mem_numeral h)
  generalize numeral width number = digits at hlength hdigit
  cases digits with
  | nil => exact absurd hlength hwidth.ne
  | cons symbol digits =>
      rw [List.cons_append, List.dropWhile_cons,
        hdigit symbol List.mem_cons_self]
      rfl

theorem frontSeconds_text (date : DateTime) :
    frontSeconds date.text = date.seconds := by
  have hspelled : spelled separated date.symbols =
      [(.year, date.year), (.month, date.month), (.day, date.day),
        (.hour, date.hour), (.minute, date.minute),
        (.second, date.second)] := by
    have hyear (rest : List Char) :
        spelled separated (numeral 4 date.year ++ '-' :: rest) =
          (.year, date.year) :: spelled (separated.drop 1) rest :=
      spelled_numeral '-' _ rest (Nat.zero_le _) date.year_le
    have hmonth (rest : List Char) :
        spelled (separated.drop 1) (numeral 2 date.month ++ '-' :: rest) =
          (.month, date.month) :: spelled (separated.drop 2) rest :=
      spelled_numeral '-' _ rest date.month_range.1 date.month_range.2
    have hday (rest : List Char) :
        spelled (separated.drop 2) (numeral 2 date.day ++ 'T' :: rest) =
          (.day, date.day) :: spelled (separated.drop 3) rest :=
      spelled_numeral 'T' _ rest date.day_range.1 date.day_range.2
    have hhour (rest : List Char) :
        spelled (separated.drop 3) (numeral 2 date.hour ++ ':' :: rest) =
          (.hour, date.hour) :: spelled (separated.drop 4) rest :=
      spelled_numeral ':' _ rest (Nat.zero_le _) date.hour_le
    have hminute (rest : List Char) :
        spelled (separated.drop 4) (numeral 2 date.minute ++ ':' :: rest) =
          (.minute, date.minute) :: spelled (separated.drop 5) rest :=
      spelled_numeral ':' _ rest (Nat.zero_le _) date.minute_le
    have hsecond :
        spelled (separated.drop 5) (numeral 2 date.second ++ ['Z']) =
          [(.second, date.second)] :=
      spelled_numeral 'Z' [] [] (Nat.zero_le _) date.second_le
    rw [DateTime.symbols, hyear, hmonth, hday, hhour, hminute, hsecond]
  rw [frontSeconds, DateTime.text, String.toList_ofList, DateTime.symbols,
    dropWhile_isSpace_numeral (by decide), ← DateTime.symbols, hspelled]
  rfl

theorem isExpired_iff (clock : Int) (expirationDate : String) :
    isExpired clock expirationDate = true ↔
      frontSeconds expirationDate ≤ clock := by
  rw [isExpired, decide_eq_true_eq, instant_eq]

theorem getMostRecentTimestamp_eq (timestamp1 timestamp2 : String) :
    getMostRecentTimestamp timestamp1 timestamp2 =
      if frontSeconds timestamp2 < frontSeconds timestamp1 then timestamp1
      else timestamp2 := by
  rw [getMostRecentTimestamp, instant_eq, instant_eq]

/-- Of texts of the form the two functions tell the order of the instants; of
other texts they do as much as their fronts allow. -/
theorem ordersInstants_iff (clock : Int) (timestamp1 timestamp2 : String) :
    OrdersInstants clock timestamp1 timestamp2 ↔
      FrontsAreEarly clock timestamp1 timestamp2 := by
  constructor
  · rintro ⟨-, hexpired, -, hfirst, hsecond⟩
    refine ⟨fun hnot => (isExpired_iff ..).mp (hexpired hnot), ?_, ?_⟩
    · intro hnot hdate
      have hne : timestamp1 ≠ timestamp2 := fun heq => hnot (heq ▸ hdate)
      have hbeaten := hsecond hnot hdate
      rw [getMostRecentTimestamp_eq] at hbeaten
      by_contra hlater
      rw [if_pos (Int.not_le.mp hlater)] at hbeaten
      exact hne hbeaten
    · intro hdate hnot
      have hne : timestamp2 ≠ timestamp1 := fun heq => hnot (heq ▸ hdate)
      have hbeats := hfirst hdate hnot
      rw [getMostRecentTimestamp_eq] at hbeats
      by_contra hlater
      rw [if_neg hlater] at hbeats
      exact hne hbeats
  · rintro ⟨hclock, hfirst, hsecond⟩
    refine ⟨?_, fun hnot => (isExpired_iff ..).mpr (hclock hnot), ?_, ?_, ?_⟩
    · rintro date rfl
      rw [isExpired_iff, frontSeconds_text]
    · rintro date1 date2 rfl rfl
      rw [getMostRecentTimestamp_eq, frontSeconds_text, frontSeconds_text]
    · intro hdate hnot
      rw [getMostRecentTimestamp_eq, if_pos (hsecond hdate hnot)]
    · intro hnot hdate
      rw [getMostRecentTimestamp_eq,
        if_neg (Int.not_lt.mpr (hfirst hnot hdate))]

/-- A year alone never expires, and beats a date that comes before it. -/
theorem year_alone :
    isExpired 1709209805 "9999" = false ∧
      getMostRecentTimestamp "9999" "2024-02-29T12:30:05Z" = "9999" ∧
      ¬ OrdersInstants 1709209805 "9999" "2024-02-29T12:30:05Z" := by
  have hnot : ¬ IsDateTime "9999" := by
    rintro ⟨date, hdate⟩
    have hlength := congrArg String.length hdate
    simp [DateTime.text, DateTime.symbols] at hlength
    exact absurd hlength (by decide)
  have hexpired : isExpired 1709209805 "9999" = false := by decide
  refine ⟨hexpired, by decide, fun h => ?_⟩
  rw [h.expiredOtherwise hnot] at hexpired
  cases hexpired

end Neroshop.Timestamp
