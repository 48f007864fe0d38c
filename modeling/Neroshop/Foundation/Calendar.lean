import Mathlib.Algebra.BigOperators.Group.List.Basic
import Mathlib.Algebra.Order.Ring.Int

/-!
# Counting days

The Gregorian calendar, from the lengths of its months.  Days are counted from
the first of January 1970; a day that a month does not have is one of the next.
-/

namespace Neroshop.Foundation

def IsLeapYear (year : Nat) : Prop :=
  4 ∣ year ∧ (¬ 100 ∣ year ∨ 400 ∣ year)

instance (year : Nat) : Decidable (IsLeapYear year) := by
  unfold IsLeapYear
  infer_instance

def monthLength (year month : Nat) : Nat :=
  if month = 2 then if IsLeapYear year then 29 else 28
  else if month ∈ [4, 6, 9, 11] then 30
  else 31

/-- The days of the year in front of a month. -/
def daysUpTo (year month : Nat) : Nat :=
  ((List.range (month - 1)).map fun earlier => monthLength year (earlier + 1)).sum

/-- The days in front of a year, from the year zero. -/
def daysBefore : Nat → Nat
  | 0 => 0
  | year + 1 => daysBefore year + daysUpTo year 13

def dayNumber (year month day : Nat) : Int :=
  daysBefore year + daysUpTo year month + day - 1 - daysBefore 1970

theorem daysUpTo_succ (year : Nat) {month : Nat} (h : month ≠ 0) :
    daysUpTo year (month + 1) = daysUpTo year month + monthLength year month := by
  obtain ⟨earlier, rfl⟩ := Nat.exists_eq_succ_of_ne_zero h
  simp [daysUpTo, List.range_succ]

theorem length_year (year : Nat) :
    daysUpTo year 13 = if IsLeapYear year then 366 else 365 := by
  by_cases hleap : IsLeapYear year
  · simp [daysUpTo, monthLength, hleap, List.range_succ]
  · simp [daysUpTo, monthLength, hleap, List.range_succ]

/-- How many multiples are in front of a number. -/
theorem multiples_succ {width : Nat} (hwidth : 0 < width) (year : Nat) :
    (year + 1 + (width - 1)) / width =
      (year + (width - 1)) / width + if width ∣ year then 1 else 0 := by
  have hnext : year + 1 + (width - 1) = year + (width - 1) + 1 := by omega
  have hwhole : year + (width - 1) + 1 = year + width := by omega
  rw [hnext, Nat.succ_div, hwhole]
  simp only [Nat.dvd_add_self_right]

/-- The leap years are the multiples of 4 and of 400 without those of 100. -/
theorem leap_days (year : Nat) :
    (if IsLeapYear year then 366 else 365) + (if 100 ∣ year then 1 else 0) =
      365 + (if 4 ∣ year then 1 else 0) + (if 400 ∣ year then 1 else 0) := by
  by_cases hcentury : 100 ∣ year
  · have hfour : 4 ∣ year := Nat.dvd_trans (by decide) hcentury
    by_cases hfourth : 400 ∣ year <;> simp [IsLeapYear, hcentury, hfour, hfourth]
  · have hfourth : ¬ 400 ∣ year := fun h =>
      hcentury (Nat.dvd_trans (by decide) h)
    by_cases hfour : 4 ∣ year <;> simp [IsLeapYear, hcentury, hfour, hfourth]

/-- Every fourth year has a day more, except for three of four that end a
century. -/
theorem daysBefore_eq (year : Nat) :
    daysBefore year =
      365 * year + (year + 3) / 4 + (year + 399) / 400 - (year + 99) / 100 := by
  induction year with
  | zero => rfl
  | succ year ih =>
      have hfour : (year + 1 + 3) / 4 =
        (year + 3) / 4 + if 4 ∣ year then 1 else 0 :=
          multiples_succ (show 0 < 4 by decide) year
      have hcentury : (year + 1 + 99) / 100 =
        (year + 99) / 100 + if 100 ∣ year then 1 else 0 :=
          multiples_succ (show 0 < 100 by decide) year
      have hfourth : (year + 1 + 399) / 400 =
        (year + 399) / 400 + if 400 ∣ year then 1 else 0 :=
          multiples_succ (show 0 < 400 by decide) year
      have hdays := leap_days year
      have hle : (year + 99) / 100 ≤ year := by omega
      rw [daysBefore, ih, length_year, hfour, hcentury, hfourth]
      clear ih hfour hcentury hfourth
      generalize (if IsLeapYear year then 366 else 365) = days at hdays ⊢
      generalize (if 4 ∣ year then 1 else 0) = four at hdays ⊢
      generalize (if 100 ∣ year then 1 else 0) = century at hdays ⊢
      generalize (if 400 ∣ year then 1 else 0) = fourth at hdays ⊢
      generalize (year + 3) / 4 = fours, (year + 99) / 100 = centuries,
        (year + 399) / 400 = fourths at hle ⊢
      omega

end Neroshop.Foundation
