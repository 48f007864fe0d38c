import Mathlib.Data.List.TakeWhile
import Mathlib.Data.Rat.Floor
import Mathlib.Tactic.FieldSimp
import Mathlib.Tactic.Linarith
import Mathlib.Tactic.Positivity
import Mathlib.Tactic.Ring
import Neroshop.Foundation.Bytes

/-!
# Strings

The functions on strings that payment URIs are written and read with.  A string
is its bytes.
-/

namespace Neroshop.Tools

open Neroshop.Foundation

/-! ## Percent encoding -/

def isxdigit (byte : UInt8) : Bool :=
  (48 ≤ byte && byte ≤ 57) || (65 ≤ byte && byte ≤ 70) ||
    (97 ≤ byte && byte ≤ 102)

/-- The value of a hexadecimal digit. -/
def xdigitValue (byte : UInt8) : UInt8 :=
  if byte ≤ 57 then byte - 48 else if byte ≤ 70 then byte - 55 else byte - 87

/-- A percent sign that no two hexadecimal digits follow stays. -/
def urlDecode : List UInt8 → List UInt8
  | [] => []
  | [byte] => [byte]
  | [byte, last] => [byte, last]
  | byte :: high :: low :: rest =>
      if byte = 37 ∧ isxdigit high ∧ isxdigit low then
        (xdigitValue high * 16 + xdigitValue low) :: urlDecode rest
      else byte :: urlDecode (high :: low :: rest)

/-- `swap_all` of `" "` by `"%20"`, which has no space itself. -/
def swapSpaces (text : List UInt8) : List UInt8 :=
  text.flatMap fun byte => if byte = 32 then [37, 50, 48] else [byte]

/-- The text starts with two hexadecimal digits. -/
def startsWithPair : List UInt8 → Bool
  | high :: low :: _ => isxdigit high && isxdigit low
  | _ => false

/-- A percent sign with two hexadecimal digits behind it. -/
def hasEscape : List UInt8 → Bool
  | [] => false
  | byte :: rest => (byte = 37 && startsWithPair rest) || hasEscape rest

theorem urlDecode_cons_of_ne {byte : UInt8} (h : byte ≠ 37)
    (rest : List UInt8) : urlDecode (byte :: rest) = byte :: urlDecode rest := by
  match rest with
  | [] => rfl
  | [_] => rfl
  | _ :: _ :: _ => rw [urlDecode, if_neg fun hescape => h hescape.1]

theorem urlDecode_percent_of_not {rest : List UInt8}
    (h : startsWithPair rest = false) :
    urlDecode (37 :: rest) = 37 :: urlDecode rest := by
  match rest with
  | [] => rfl
  | [_] => rfl
  | high :: low :: rest =>
      rw [urlDecode, if_neg]
      rintro ⟨-, hhigh, hlow⟩
      rw [startsWithPair, hhigh, hlow] at h
      exact Bool.noConfusion h

theorem swapSpaces_cons (byte : UInt8) (rest : List UInt8) :
    swapSpaces (byte :: rest) =
      (if byte = 32 then [37, 50, 48] else [byte]) ++ swapSpaces rest :=
  List.flatMap_cons

theorem swapSpaces_cons_of_ne {byte : UInt8} (h : byte ≠ 32)
    (rest : List UInt8) :
    swapSpaces (byte :: rest) = byte :: swapSpaces rest := by
  rw [swapSpaces_cons, if_neg h, List.singleton_append]

/-- Escaping brings in only the characters of an escape. -/
theorem mem_of_mem_swapSpaces {byte : UInt8} {text : List UInt8}
    (hbyte : byte ∉ ([37, 50, 48] : List UInt8)) (h : byte ∈ swapSpaces text) :
    byte ∈ text := by
  obtain ⟨origin, horigin, hmem⟩ := List.mem_flatMap.mp h
  split at hmem
  case isTrue => exact absurd hmem hbyte
  case isFalse =>
    rw [List.mem_singleton.mp hmem]
    exact horigin

theorem ne_space_of_isxdigit {byte : UInt8} (h : isxdigit byte = true) :
    byte ≠ 32 ∧ byte ≠ 37 := by
  constructor <;> rintro rfl <;> exact absurd h (by decide)

/-- A space gives no digits to a percent sign in front of it. -/
theorem startsWithPair_swapSpaces (text : List UInt8) :
    startsWithPair (swapSpaces text) = startsWithPair text := by
  match text with
  | [] => rfl
  | [byte] =>
      rw [swapSpaces_cons]
      split <;> rfl
  | high :: low :: rest =>
      rw [swapSpaces_cons, swapSpaces_cons]
      split
      case isTrue hhigh => rw [hhigh]; rfl
      case isFalse hhigh =>
        split
        case isTrue hlow =>
          rw [hlow]
          exact (Bool.and_false _).trans (Bool.and_false _).symm
        case isFalse hlow => rfl

theorem urlDecode_space (rest : List UInt8) :
    urlDecode (37 :: 50 :: 48 :: rest) = 32 :: urlDecode rest := rfl

theorem hasEscape_cons {byte : UInt8} {rest : List UInt8} :
    hasEscape (byte :: rest) = false ↔
      (byte = 37 → startsWithPair rest = false) ∧ hasEscape rest = false := by
  rw [hasEscape, Bool.or_eq_false_iff, Bool.and_eq_false_imp, decide_eq_true_iff]

/-- What has no escape of its own is read back. -/
theorem urlDecode_swapSpaces {text : List UInt8} (h : hasEscape text = false) :
    urlDecode (swapSpaces text) = text := by
  induction text with
  | nil => rfl
  | cons byte rest ih =>
      obtain ⟨hpair, hrest⟩ := hasEscape_cons.mp h
      by_cases hspace : byte = 32
      · rw [hspace, swapSpaces_cons, if_pos rfl]
        exact (urlDecode_space _).trans (congrArg _ (ih hrest))
      · rw [swapSpaces_cons_of_ne hspace]
        by_cases hpercent : byte = 37
        · rw [hpercent, urlDecode_percent_of_not, ih hrest]
          rw [startsWithPair_swapSpaces]
          exact hpair hpercent
        · rw [urlDecode_cons_of_ne hpercent, ih hrest]

/-- An escape that the text has from the start makes it shorter. -/
theorem length_urlDecode_swapSpaces (text : List UInt8) :
    (urlDecode (swapSpaces text)).length +
        (if hasEscape text then 1 else 0) ≤ text.length := by
  induction hlength : text.length using Nat.strongRecOn generalizing text with
  | ind length ih =>
      cases text with
      | nil =>
          subst hlength
          rfl
      | cons byte rest =>
          rw [List.length_cons] at hlength
          have hrest := ih rest.length (by omega) rest rfl
          by_cases hspace : byte = 32
          · have hescape : hasEscape (byte :: rest) = hasEscape rest := by
              rw [hspace, hasEscape]
              rfl
            rw [hescape, hspace, swapSpaces_cons, if_pos rfl]
            change (urlDecode (37 :: 50 :: 48 :: swapSpaces rest)).length + _ ≤ _
            rw [urlDecode_space, List.length_cons]
            omega
          · rw [swapSpaces_cons_of_ne hspace]
            by_cases hpercent : byte = 37 ∧ startsWithPair rest = true
            · obtain ⟨rfl, hpair⟩ := hpercent
              match rest, hpair with
              | high :: low :: more, hpair =>
                  rw [startsWithPair, Bool.and_eq_true] at hpair
                  have hmore := ih more.length
                    (by simp only [List.length_cons] at hlength; omega) more rfl
                  rw [swapSpaces_cons_of_ne (ne_space_of_isxdigit hpair.1).1,
                    swapSpaces_cons_of_ne (ne_space_of_isxdigit hpair.2).1,
                    urlDecode, if_pos ⟨rfl, hpair⟩]
                  simp only [List.length_cons] at hlength ⊢
                  split <;> omega
            · have hescape : hasEscape (byte :: rest) = hasEscape rest := by
                rw [hasEscape, Bool.or_eq_right_iff_imp, Bool.and_eq_true,
                  decide_eq_true_iff]
                exact fun h => absurd h hpercent
              have hdecode : urlDecode (byte :: swapSpaces rest) =
                  byte :: urlDecode (swapSpaces rest) := by
                by_cases hbyte : byte = 37
                · rw [hbyte, urlDecode_percent_of_not]
                  rw [startsWithPair_swapSpaces, Bool.eq_false_iff]
                  exact fun hpair => hpercent ⟨hbyte, hpair⟩
                · exact urlDecode_cons_of_ne hbyte _
              rw [hescape, hdecode, List.length_cons]
              omega

theorem length_urlDecode_swapSpaces_le (text : List UInt8) :
    (urlDecode (swapSpaces text)).length ≤ text.length :=
  (Nat.le_add_right _ _).trans (length_urlDecode_swapSpaces text)

theorem urlDecode_swapSpaces_iff {text : List UInt8} :
    urlDecode (swapSpaces text) = text ↔ hasEscape text = false := by
  refine ⟨fun h => ?_, urlDecode_swapSpaces⟩
  have hlength := length_urlDecode_swapSpaces text
  rw [h] at hlength
  cases hescape : hasEscape text with
  | false => rfl
  | true =>
      rw [hescape, if_pos rfl] at hlength
      omega

/-! ## Lines up to a delimiter -/

/-- `std::getline` until the end of the stream, which gives no last line where
the delimiter is the last character. -/
def getlines (delimiter : UInt8) : List UInt8 → List (List UInt8)
  | [] => []
  | byte :: rest =>
      if byte = delimiter then [] :: getlines delimiter rest
      else
        match getlines delimiter rest with
        | [] => [[byte]]
        | line :: lines => (byte :: line) :: lines

section Lines

variable {delimiter : UInt8}

theorem getlines_of_notMem {line : List UInt8} (h : delimiter ∉ line)
    (hline : line ≠ []) : getlines delimiter line = [line] := by
  induction line with
  | nil => exact absurd rfl hline
  | cons byte rest ih =>
      rw [List.mem_cons, not_or] at h
      rw [getlines, if_neg (Ne.symm h.1)]
      cases rest with
      | nil => rfl
      | cons next rest => rw [ih h.2 (List.cons_ne_nil _ _)]

theorem getlines_append {line : List UInt8} (h : delimiter ∉ line)
    (rest : List UInt8) :
    getlines delimiter (line ++ delimiter :: rest) =
      line :: getlines delimiter rest := by
  induction line with
  | nil => rw [List.nil_append, getlines, if_pos rfl]
  | cons byte line ih =>
      rw [List.mem_cons, not_or] at h
      rw [List.cons_append, getlines, if_neg (Ne.symm h.1), ih h.2]

/-- What is in front of a delimiter does not change the lines behind it. -/
theorem getlines_append_delimiter (text rest : List UInt8) :
    getlines delimiter (text ++ delimiter :: rest) =
      getlines delimiter (text ++ [delimiter]) ++ getlines delimiter rest := by
  induction text with
  | nil => rw [List.nil_append, List.nil_append, getlines, if_pos rfl, getlines,
      if_pos rfl, getlines, List.singleton_append]
  | cons byte text ih =>
      rw [List.cons_append, List.cons_append, getlines, getlines, ih]
      split
      case isTrue => rfl
      case isFalse =>
        cases hlines : getlines delimiter (text ++ [delimiter]) with
        | nil =>
            have hne : ∀ first : List UInt8,
                getlines delimiter (first ++ [delimiter]) ≠ [] := by
              intro first
              cases first with
              | nil => simp [getlines]
              | cons byte first =>
                  rw [List.cons_append, getlines]
                  split
                  · exact List.cons_ne_nil _ _
                  · split <;> exact List.cons_ne_nil _ _
            exact absurd hlines (hne text)
        | cons line lines => rfl

theorem length_of_mem_getlines {text line : List UInt8}
    (h : line ∈ getlines delimiter text) : line.length ≤ text.length := by
  induction text generalizing line with
  | nil => exact absurd h List.not_mem_nil
  | cons byte rest ih =>
      rw [getlines] at h
      rw [List.length_cons]
      split at h
      case isTrue =>
        rcases List.mem_cons.mp h with rfl | h
        · exact Nat.zero_le _
        · exact (ih h).trans (Nat.le_succ _)
      case isFalse =>
        split at h
        case h_1 hempty =>
          rw [List.mem_singleton.mp h, List.length_singleton]
          omega
        case h_2 first lines hlines =>
          rw [hlines] at ih
          rcases List.mem_cons.mp h with rfl | h
          · rw [List.length_cons]
            exact Nat.succ_le_succ (ih List.mem_cons_self)
          · exact (ih (List.mem_cons_of_mem _ h)).trans (Nat.le_succ _)

/-- Escaping spaces leaves the delimiters where they are. -/
theorem getlines_swapSpaces (text : List UInt8) :
    getlines 38 (swapSpaces text) = (getlines 38 text).map swapSpaces := by
  induction text with
  | nil => rfl
  | cons byte rest ih =>
      by_cases hspace : byte = 32
      · rw [hspace, swapSpaces_cons, if_pos rfl]
        change getlines 38 (37 :: 50 :: 48 :: swapSpaces rest) = _
        rw [getlines, getlines, getlines, getlines, ih]
        cases getlines 38 rest <;> rfl
      · rw [swapSpaces_cons_of_ne hspace, getlines, getlines, ih]
        split
        case isTrue => rfl
        case isFalse =>
          cases getlines 38 rest with
          | nil => exact congrArg (fun line => [line]) (swapSpaces_cons_of_ne hspace []).symm
          | cons line lines =>
              exact congrArg (· :: _) (swapSpaces_cons_of_ne hspace line).symm

end Lines

/-! ## Numbers -/

/-- `isspace` of the C locale. -/
def isspace (byte : UInt8) : Bool := byte = 32 || (9 ≤ byte && byte ≤ 13)

def isdigit (byte : UInt8) : Bool := 48 ≤ byte && byte ≤ 57

def decimal (number : Nat) : List UInt8 :=
  (Nat.toDigits 10 number).map fun digit => UInt8.ofNat digit.toNat

/-- The last digits of a number, as many as are asked for. -/
def lastDigits : Nat → Nat → List UInt8
  | 0, _ => []
  | count + 1, number =>
      lastDigits count (number / 10) ++ [UInt8.ofNat (48 + number % 10)]

def ofDecimal (digits : List UInt8) : Nat :=
  digits.foldl (fun number digit => number * 10 + (digit.toNat - 48)) 0

theorem ofDecimal_snoc (digits : List UInt8) (digit : UInt8) :
    ofDecimal (digits ++ [digit]) = ofDecimal digits * 10 + (digit.toNat - 48) := by
  simp [ofDecimal]

theorem ofDecimal_append (first second : List UInt8) :
    ofDecimal (first ++ second) =
      ofDecimal first * 10 ^ second.length + ofDecimal second := by
  induction second using List.reverseRecOn with
  | nil => simp [ofDecimal]
  | append_singleton second digit ih =>
      rw [← List.append_assoc, ofDecimal_snoc, ih, ofDecimal_snoc,
        List.length_append, List.length_singleton, pow_succ]
      ring

theorem length_lastDigits (count number : Nat) :
    (lastDigits count number).length = count := by
  induction count generalizing number with
  | zero => rfl
  | succ count ih => rw [lastDigits, List.length_append, ih, List.length_singleton]

theorem toNat_digit {number : Nat} (h : number < 10) :
    (UInt8.ofNat (48 + number)).toNat - 48 = number ∧
      isdigit (UInt8.ofNat (48 + number)) = true := by
  have hall : ∀ n : Fin 10, (UInt8.ofNat (48 + n)).toNat - 48 = n.val ∧
      isdigit (UInt8.ofNat (48 + n)) = true := by
    decide
  exact hall ⟨number, h⟩

theorem ofDecimal_lastDigits (count number : Nat) :
    ofDecimal (lastDigits count number) = number % 10 ^ count := by
  induction count generalizing number with
  | zero => exact (Nat.mod_one number).symm
  | succ count ih =>
      rw [lastDigits, ofDecimal_snoc, ih,
        (toNat_digit (Nat.mod_lt _ (by omega))).1, pow_succ, mul_comm (10 ^ count),
        Nat.mod_mul]
      omega

theorem isdigit_lastDigits {count number : Nat} {byte : UInt8}
    (h : byte ∈ lastDigits count number) : isdigit byte = true := by
  induction count generalizing number with
  | zero => exact absurd h List.not_mem_nil
  | succ count ih =>
      rw [lastDigits, List.mem_append, List.mem_singleton] at h
      rcases h with h | rfl
      · exact ih h
      · exact (toNat_digit (Nat.mod_lt _ (by omega))).2

theorem digitChar_byte {number : Nat} (h : number < 10) :
    UInt8.ofNat (Nat.digitChar number).toNat = UInt8.ofNat (48 + number) := by
  have hall : ∀ n : Fin 10, UInt8.ofNat (Nat.digitChar n).toNat =
      UInt8.ofNat (48 + n) := by
    decide
  exact hall ⟨number, h⟩

theorem decimal_eq (number : Nat) :
    decimal number =
      (if number < 10 then [] else decimal (number / 10)) ++
        [UInt8.ofNat (48 + number % 10)] := by
  rw [decimal, Nat.toDigits_eq_if (by omega)]
  split
  case isTrue hless =>
    rw [Nat.mod_eq_of_lt hless, ← digitChar_byte hless]
    rfl
  case isFalse hmore =>
    rw [List.map_append, ← digitChar_byte (Nat.mod_lt _ (by omega))]
    rfl

theorem ofDecimal_decimal (number : Nat) : ofDecimal (decimal number) = number := by
  induction number using Nat.strongRecOn with
  | ind number ih =>
      rw [decimal_eq, ofDecimal_snoc, (toNat_digit (Nat.mod_lt _ (by omega))).1]
      split
      case isTrue hless =>
        rw [Nat.mod_eq_of_lt hless]
        exact Nat.zero_add _
      case isFalse hmore =>
        rw [ih _ (by omega)]
        omega

theorem isdigit_decimal {number : Nat} {byte : UInt8}
    (h : byte ∈ decimal number) : isdigit byte = true := by
  induction number using Nat.strongRecOn with
  | ind number ih =>
      rw [decimal_eq, List.mem_append, List.mem_singleton] at h
      rcases h with h | rfl
      · split at h
        · exact absurd h List.not_mem_nil
        · exact ih _ (by omega) h
      · exact (toNat_digit (Nat.mod_lt _ (by omega))).2

theorem decimal_ne_nil (number : Nat) : decimal number ≠ [] := by
  rw [decimal_eq]
  exact List.append_ne_nil_of_right_ne_nil _ (List.cons_ne_nil _ _)

/-- Of a number with twelve digits behind the point, rounded to even. -/
def rounded (value : ℚ) : Nat :=
  let units : ℚ := value * 10 ^ 12
  let whole : Nat := ⌊units⌋.toNat
  if units - whole < 1 / 2 ∨ units - whole = 1 / 2 ∧ whole % 2 = 0 then whole
  else whole + 1

/-- `precision(value, 12)` of a number that is not negative. -/
def precision (value : ℚ) : List UInt8 :=
  decimal (rounded value / 10 ^ 12) ++ 46 :: lastDigits 12 (rounded value)

/-- Whether there is a minus sign, and what follows the sign. -/
def splitSign : List UInt8 → Bool × List UInt8
  | [] => (false, [])
  | byte :: rest =>
      if byte = 45 then (true, rest)
      else if byte = 43 then (false, rest) else (false, byte :: rest)

/-- `e`, an optional sign and digits. -/
def exponent : List UInt8 → Int
  | [] => 0
  | mark :: rest =>
      let (negative, digits) := splitSign rest
      let value : Int := ofDecimal (digits.takeWhile isdigit)
      if mark ≠ 101 ∧ mark ≠ 69 then 0
      else if negative then -value else value

/-- The point and the digits behind it, and what comes then. -/
def splitFraction : List UInt8 → List UInt8 × List UInt8
  | [] => ([], [])
  | byte :: rest =>
      if byte = 46 then (rest.takeWhile isdigit, rest.dropWhile isdigit)
      else ([], byte :: rest)

/-- A text in a notation other than the decimal one: `0x`, `inf` or `nan`. -/
def startsOtherNotation : List UInt8 → Bool
  | [] => false
  | byte :: rest =>
      byte = 105 || byte = 73 || byte = 110 || byte = 78 ||
        (byte = 48 && (rest.head? = some 120 || rest.head? = some 88))

/-- `std::stod`, which throws where there is no number.  What it makes of the
other notations is left open; the numbers are exact, and the `out_of_range` it
throws on one that no double holds is left out. -/
def stod (otherNotation : List UInt8 → Option ℚ) (text : List UInt8) :
    Option ℚ :=
  let (negative, unsigned) := splitSign (text.dropWhile isspace)
  if startsOtherNotation unsigned then otherNotation text
  else
    let whole := unsigned.takeWhile isdigit
    let (fraction, rest) := splitFraction (unsigned.dropWhile isdigit)
    if whole = [] ∧ fraction = [] then none
    else
      let value := (ofDecimal (whole ++ fraction) : ℚ) / 10 ^ fraction.length *
        (10 : ℚ) ^ exponent rest
      some (if negative then -value else value)

/-- A multiple of the last digit is not rounded. -/
theorem rounded_of_multiple (number : Nat) :
    rounded ((number : ℚ) / 10 ^ 12) = number := by
  have hunits : (number : ℚ) / 10 ^ 12 * 10 ^ 12 = number := by field_simp
  simp only [rounded, hunits, Int.floor_natCast, Int.toNat_natCast, sub_self]
  rw [if_pos (.inl (by norm_num))]

theorem precision_digits {value : ℚ} {byte : UInt8} (h : byte ∈ precision value) :
    isdigit byte = true ∨ byte = 46 := by
  rw [precision, List.mem_append, List.mem_cons] at h
  rcases h with h | h | h
  · exact .inl (isdigit_decimal h)
  · exact .inr h
  · exact .inl (isdigit_lastDigits h)

theorem isdigit_ne {byte : UInt8} (h : isdigit byte = true) :
    isspace byte = false ∧ byte ≠ 45 ∧ byte ≠ 43 ∧ byte ≠ 120 ∧ byte ≠ 88 ∧
      startsOtherNotation [byte] = false := by
  have hall : ∀ n : Fin 256, isdigit (UInt8.ofNat n) = true →
      isspace (UInt8.ofNat n) = false ∧ UInt8.ofNat n ≠ 45 ∧
        UInt8.ofNat n ≠ 43 ∧ UInt8.ofNat n ≠ 120 ∧ UInt8.ofNat n ≠ 88 ∧
        startsOtherNotation [UInt8.ofNat n] = false := by
    decide +kernel
  have hbyte := hall ⟨byte.toNat, byte.toNat_lt⟩
  simp only [UInt8.ofNat_toNat] at hbyte
  exact hbyte h

/-- Digits, the point and digits again. -/
theorem stod_fixed (otherNotation : List UInt8 → Option ℚ)
    {whole fraction : List UInt8} (hwhole : ∀ byte ∈ whole, isdigit byte = true)
    (hne : whole ≠ []) (hfraction : ∀ byte ∈ fraction, isdigit byte = true) :
    stod otherNotation (whole ++ 46 :: fraction) =
      some ((ofDecimal (whole ++ fraction) : ℚ) / 10 ^ fraction.length) := by
  obtain ⟨digit, digits, rfl⟩ := List.exists_cons_of_ne_nil hne
  have hdigit := isdigit_ne (hwhole digit List.mem_cons_self)
  obtain ⟨hspace, hminus, hplus, -, -, hmark⟩ := hdigit
  have hunsigned : splitSign ((digit :: digits ++ 46 :: fraction).dropWhile isspace) =
      (false, digit :: digits ++ 46 :: fraction) := by
    rw [List.cons_append, List.dropWhile_cons_of_neg (by simp [hspace]), splitSign,
      if_neg hminus, if_neg hplus]
  have hother : startsOtherNotation (digit :: digits ++ 46 :: fraction) = false := by
    have hnext : ∀ byte, (digits ++ 46 :: fraction).head? = some byte →
        byte ≠ 120 ∧ byte ≠ 88 := by
      intro byte hbyte
      cases digits with
      | nil =>
          cases hbyte
          decide
      | cons next digits =>
          cases hbyte
          have hnext := isdigit_ne (hwhole byte (by simp))
          exact ⟨hnext.2.2.2.1, hnext.2.2.2.2.1⟩
    simp only [startsOtherNotation, List.head?_nil, reduceCtorEq, decide_false,
      Bool.or_self, Bool.and_false, Bool.or_false] at hmark
    simp only [List.cons_append, startsOtherNotation, hmark, Bool.false_or,
      Bool.and_eq_false_imp, decide_eq_true_eq, Bool.or_eq_false_iff,
      decide_eq_false_iff_not]
    intro _
    exact ⟨fun h => (hnext 120 h).1 rfl, fun h => (hnext 88 h).2 rfl⟩
  have hsplit : splitFraction ((digit :: digits ++ 46 :: fraction).dropWhile isdigit) =
      (fraction, []) := by
    rw [List.dropWhile_append_of_pos hwhole, List.dropWhile_cons_of_neg (by decide),
      splitFraction, if_pos rfl, List.takeWhile_eq_self_iff.mpr hfraction,
      List.dropWhile_eq_nil_iff.mpr hfraction]
  have htake : (digit :: digits ++ 46 :: fraction).takeWhile isdigit =
      digit :: digits := by
    rw [List.takeWhile_append_of_pos hwhole, List.takeWhile_cons_of_neg (by decide),
      List.append_nil]
  simp only [stod, hunsigned, hother, hsplit, htake, Bool.false_eq_true, if_false,
    reduceCtorEq, false_and, exponent, zpow_zero, mul_one]

theorem stod_precision (otherNotation : List UInt8 → Option ℚ) (number : Nat) :
    stod otherNotation (precision ((number : ℚ) / 10 ^ 12)) =
      some ((number : ℚ) / 10 ^ 12) := by
  have hvalue : ofDecimal (decimal (number / 10 ^ 12) ++ lastDigits 12 number) =
      number := by
    rw [ofDecimal_append, ofDecimal_decimal, length_lastDigits,
      ofDecimal_lastDigits]
    exact Nat.div_add_mod' number _
  rw [precision, rounded_of_multiple,
    stod_fixed otherNotation (fun _ => isdigit_decimal) (decimal_ne_nil _)
      (fun _ => isdigit_lastDigits), hvalue, length_lastDigits]

end Neroshop.Tools
