import Mathlib.Algebra.Order.Ring.Nat
import Mathlib.Data.List.TakeWhile
import Mathlib.Tactic.Ring

/-!
# Numerals of a fixed width

Numbers written with so many decimal digits, leading zeros among them, and read
back from the front of a text.
-/

namespace Neroshop.Foundation

/-- The number that the digits make behind those of a value. -/
def decimalFrom (value : Nat) (digits : List Char) : Nat :=
  digits.foldl (fun value digit => value * 10 + (digit.toNat - '0'.toNat)) value

/-- The low digits of a number, the most significant first. -/
def numeral : Nat → Nat → List Char
  | 0, _ => []
  | width + 1, number =>
      numeral width (number / 10) ++ [Nat.digitChar (number % 10)]

/-- The digits in front of a text, or the first `width` of them. -/
def leadingDigits (width : Nat) (text : List Char) : List Char :=
  (text.take width).takeWhile Char.isDigit

theorem le_decimalFrom (value : Nat) (digits : List Char) :
    value ≤ decimalFrom value digits := by
  induction digits generalizing value with
  | nil => exact le_rfl
  | cons digit digits ih =>
      have hstep := ih (value * 10 + (digit.toNat - '0'.toNat))
      change value ≤ decimalFrom (value * 10 + (digit.toNat - '0'.toNat)) digits
      omega

theorem digitChar_mod (number : Nat) :
    (Nat.digitChar (number % 10)).isDigit = true ∧
      (Nat.digitChar (number % 10)).toNat - '0'.toNat = number % 10 := by
  have hall : ∀ digit : Fin 10, (Nat.digitChar digit).isDigit = true ∧
      (Nat.digitChar digit).toNat - '0'.toNat = digit := by
    decide
  exact hall ⟨number % 10, Nat.mod_lt _ (by decide)⟩

@[simp] theorem length_numeral (width number : Nat) :
    (numeral width number).length = width := by
  induction width generalizing number with
  | zero => rfl
  | succ width ih => simp [numeral, ih]

theorem isDigit_of_mem_numeral {width number : Nat} {symbol : Char}
    (h : symbol ∈ numeral width number) : symbol.isDigit = true := by
  induction width generalizing number with
  | zero => exact absurd h List.not_mem_nil
  | succ width ih =>
      rcases List.mem_append.mp h with hfront | hlast
      · exact ih hfront
      · rw [List.mem_singleton.mp hlast]
        exact (digitChar_mod number).1

theorem decimalFrom_numeral {width number : Nat} (h : number < 10 ^ width) :
    decimalFrom 0 (numeral width number) = number := by
  induction width generalizing number with
  | zero =>
      have hzero : number = 0 := by simpa using h
      exact hzero.symm
  | succ width ih =>
      have hquotient : number / 10 < 10 ^ width := by
        rw [pow_succ] at h
        exact Nat.div_lt_of_lt_mul (by rwa [mul_comm])
      have hstep : decimalFrom 0 (numeral (width + 1) number) =
          decimalFrom 0 (numeral width (number / 10)) * 10 +
            ((Nat.digitChar (number % 10)).toNat - '0'.toNat) := by
        rw [numeral, decimalFrom, List.foldl_append]
        rfl
      rw [hstep, ih hquotient, (digitChar_mod number).2]
      omega

theorem leadingDigits_cons (width : Nat) (symbol : Char) (text : List Char) :
    leadingDigits (width + 1) (symbol :: text) =
      if symbol.isDigit then symbol :: leadingDigits width text else [] := by
  rw [leadingDigits, List.take_succ_cons, List.takeWhile_cons]
  rfl

/-- A numeral ends where it has all of its digits. -/
theorem leadingDigits_numeral (width number : Nat) (rest : List Char) :
    leadingDigits width (numeral width number ++ rest) =
      numeral width number := by
  have htake : (numeral width number ++ rest).take width =
      numeral width number :=
    List.take_left' (length_numeral width number)
  rw [leadingDigits, htake, List.takeWhile_eq_self_iff]
  exact fun symbol hsymbol => isDigit_of_mem_numeral hsymbol

end Neroshop.Foundation
