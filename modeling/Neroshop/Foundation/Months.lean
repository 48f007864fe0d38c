import Mathlib.Data.Nat.Find
import Mathlib.Order.Monotone.Basic
import Mathlib.Tactic.IntervalCases
import Mathlib.Tactic.Linarith
import Neroshop.Foundation.Calendar

/-!
# Counting months

The months are numbered on from January of the year zero, and the days from its
first.  A day is in one month, and so many months later is a day of the month of
that number, which is the last one if the day is, or if there is no other.
-/

namespace Neroshop.Foundation

def lengthOf (index : Nat) : Nat := monthLength (index / 12) (index % 12 + 1)

/-- The days in front of a month. -/
def monthStart (index : Nat) : Nat :=
  daysBefore (index / 12) + daysUpTo (index / 12) (index % 12 + 1)

theorem monthStart_zero : monthStart 0 = 0 := rfl

theorem monthStart_succ (index : Nat) :
    monthStart (index + 1) = monthStart index + lengthOf index := by
  rw [monthStart, monthStart, lengthOf]
  by_cases hlast : index % 12 = 11
  · have hyear : (index + 1) / 12 = index / 12 + 1 := by omega
    have hmonth : (index + 1) % 12 = 0 := by omega
    have hwhole : daysUpTo (index / 12) 13 =
        daysUpTo (index / 12) 12 + monthLength (index / 12) 12 :=
      daysUpTo_succ _ (by decide)
    have hjanuary : daysUpTo (index / 12 + 1) (0 + 1) = 0 := rfl
    rw [hyear, hmonth, hlast, daysBefore, hwhole, hjanuary, Nat.add_zero]
    exact (Nat.add_assoc ..).symm
  · have hyear : (index + 1) / 12 = index / 12 := by omega
    have hmonth : (index + 1) % 12 = index % 12 + 1 := by omega
    rw [hyear, hmonth, daysUpTo_succ _ (by omega), Nat.add_assoc]

theorem monthStart_year (year : Nat) :
    monthStart (12 * year) = daysBefore year := by
  have hjanuary : daysUpTo year (0 + 1) = 0 := rfl
  rw [monthStart, Nat.mul_div_cancel_left _ (by decide), Nat.mul_mod_right,
    hjanuary, Nat.add_zero]

theorem lengthOf_bounds (index : Nat) :
    28 ≤ lengthOf index ∧ lengthOf index ≤ 31 := by
  rw [lengthOf, monthLength]
  split_ifs <;> omega

theorem monthStart_strictMono : StrictMono monthStart :=
  strictMono_nat_of_lt_succ fun index => by
    rw [monthStart_succ]
    have hlength := (lengthOf_bounds index).1
    omega

/-- A month has 28 days and at most three more. -/
theorem monthStart_add_bounds (index months : Nat) :
    monthStart index + 28 * months ≤ monthStart (index + months) ∧
      monthStart (index + months) ≤ monthStart index + 31 * months := by
  induction months with
  | zero => simp
  | succ months ih =>
      have hlength := lengthOf_bounds (index + months)
      rw [← Nat.add_assoc, monthStart_succ]
      omega

/-! ## Years -/

/-- From March on a leap year is a day ahead. -/
theorem daysUpTo_eq (year : Nat) {month : Nat} (h : month ≤ 13) :
    daysUpTo year month =
      daysUpTo 1 month + if 2 < month ∧ IsLeapYear year then 1 else 0 := by
  have hfirst : ¬ IsLeapYear 1 := by decide
  by_cases hleap : IsLeapYear year <;>
    interval_cases month <;>
    simp [daysUpTo, monthLength, List.range_succ, hleap, hfirst]

theorem monthStart_year_bounds (index : Nat) :
    monthStart index + 365 ≤ monthStart (index + 12) ∧
      monthStart (index + 12) ≤ monthStart index + 366 := by
  have hyear : (index + 12) / 12 = index / 12 + 1 := by omega
  have hmonth : (index + 12) % 12 = index % 12 := by omega
  have hlength := length_year (index / 12)
  rw [monthStart, monthStart, hyear, hmonth, daysBefore, hlength,
    daysUpTo_eq (index / 12) (show index % 12 + 1 ≤ 13 by omega),
    daysUpTo_eq (index / 12 + 1) (show index % 12 + 1 ≤ 13 by omega)]
  by_cases hleap : IsLeapYear (index / 12)
  · -- two leap years do not follow each other
    have hnext : ¬ IsLeapYear (index / 12 + 1) := by
      intro hnext
      have hfour := hleap.1
      have hfour' := hnext.1
      omega
    simp only [hleap, hnext, if_true, and_true, and_false, if_false]
    split <;> omega
  · simp only [hleap, and_false, if_false]
    split <;> omega

theorem monthStart_years_bounds (index years : Nat) :
    monthStart index + 365 * years ≤ monthStart (index + 12 * years) ∧
      monthStart (index + 12 * years) ≤ monthStart index + 366 * years := by
  induction years with
  | zero => simp
  | succ years ih =>
      have hyear := monthStart_year_bounds (index + 12 * years)
      have hnext : index + 12 * (years + 1) = index + 12 * years + 12 := by omega
      rw [hnext]
      constructor
      · linarith [hyear.1, ih.1]
      · linarith [hyear.2, ih.2]

/-! ## The month of a day -/

theorem le_monthStart (index : Nat) : index ≤ monthStart index := by
  have hbound := (monthStart_add_bounds 0 index).1
  rw [monthStart_zero, Nat.zero_add, Nat.zero_add] at hbound
  omega

def monthOf (day : Nat) : Nat :=
  Nat.findGreatest (fun index => monthStart index ≤ day) day

theorem monthStart_monthOf_le (day : Nat) : monthStart (monthOf day) ≤ day :=
  @Nat.findGreatest_spec 0 (fun index => monthStart index ≤ day) _ day
    (Nat.zero_le day) (monthStart_zero ▸ Nat.zero_le day)

theorem lt_monthStart_monthOf_succ (day : Nat) :
    day < monthStart (monthOf day + 1) := by
  by_contra hle
  rw [Nat.not_lt] at hle
  have hbound : monthOf day + 1 ≤ day := (le_monthStart _).trans hle
  exact Nat.findGreatest_is_greatest (Nat.lt_succ_self _) hbound hle

theorem monthOf_eq {day index : Nat} (hstart : monthStart index ≤ day)
    (hend : day < monthStart (index + 1)) : monthOf day = index := by
  have hle := monthStart_monthOf_le day
  have hlt := lt_monthStart_monthOf_succ day
  have hupper := monthStart_strictMono.lt_iff_lt.mp (hle.trans_lt hend)
  have hlower := monthStart_strictMono.lt_iff_lt.mp (hstart.trans_lt hlt)
  omega

/-- The days of the month in front of a day. -/
def dayOfMonth (day : Nat) : Nat := day - monthStart (monthOf day)

theorem monthStart_add_dayOfMonth (day : Nat) :
    monthStart (monthOf day) + dayOfMonth day = day :=
  Nat.add_sub_cancel' (monthStart_monthOf_le day)

theorem dayOfMonth_lt (day : Nat) : dayOfMonth day < lengthOf (monthOf day) := by
  have hlt := lt_monthStart_monthOf_succ day
  have hday := monthStart_add_dayOfMonth day
  rw [monthStart_succ] at hlt
  omega

/-- A day in the numbers of its year, its month and itself. -/
theorem dayNumber_monthOf (day : Nat) :
    dayNumber (monthOf day / 12) (monthOf day % 12 + 1) (dayOfMonth day + 1) =
      day - daysBefore 1970 := by
  have hday := monthStart_add_dayOfMonth day
  rw [monthStart] at hday
  rw [dayNumber]
  omega

/-! ## So many months later -/

/-- The day of the month, or the last one. -/
def laterDayOfMonth (day months : Nat) : Nat :=
  if dayOfMonth day + 1 = lengthOf (monthOf day)
  then lengthOf (monthOf day + months) - 1
  else min (dayOfMonth day) (lengthOf (monthOf day + months) - 1)

def addMonths (day months : Nat) : Nat :=
  monthStart (monthOf day + months) + laterDayOfMonth day months

theorem laterDayOfMonth_lt (day months : Nat) :
    laterDayOfMonth day months < lengthOf (monthOf day + months) := by
  have hlength := (lengthOf_bounds (monthOf day + months)).1
  rw [laterDayOfMonth]
  split <;> omega

theorem monthOf_addMonths (day months : Nat) :
    monthOf (addMonths day months) = monthOf day + months := by
  refine monthOf_eq (Nat.le_add_right _ _) ?_
  rw [monthStart_succ, addMonths]
  exact Nat.add_lt_add_left (laterDayOfMonth_lt day months) _

/-- Bounds on the length of so many months, whichever they are, are bounds on
the days between. -/
theorem addMonths_bounds {months low high : Nat}
    (h : ∀ index, monthStart index + low ≤ monthStart (index + months) ∧
      monthStart (index + months) ≤ monthStart index + high) (day : Nat) :
    day + low ≤ addMonths day months ∧ addMonths day months ≤ day + high := by
  have hday := monthStart_add_dayOfMonth day
  have hthis := h (monthOf day)
  -- a day that is the last one, or is cut, is counted from the next month
  have hnext := h (monthOf day + 1)
  have hlt := dayOfMonth_lt day
  rw [Nat.add_right_comm, monthStart_succ, monthStart_succ] at hnext
  rw [addMonths, laterDayOfMonth]
  split
  · omega
  · rcases Nat.le_total (dayOfMonth day)
      (lengthOf (monthOf day + months) - 1) with hle | hle
    · rw [Nat.min_eq_left hle]
      omega
    · rw [Nat.min_eq_right hle]
      omega

end Neroshop.Foundation
