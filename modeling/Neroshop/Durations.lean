import Neroshop.Foundation.Months
import Neroshop.Instants
import Neroshop.Json

/-!
# Dates after a duration

`get_utc_timestamp_after_duration` adds a number of units to the current time
and writes the date of the sum.  Months and years are added to the date alone,
as the date library does it: the last day of a month leads to the last day of a
month, and so does a day that the later month does not have.
-/

namespace Neroshop.Timestamp

open Neroshop.Foundation

/-- A `ptime`: a day, counted from the year zero, and a second of it. -/
structure Ptime where
  day : Nat
  second : Nat
  second_lt : second < 86400

namespace Ptime

/-- `second_clock::universal_time()`. -/
def ofClock (clock : Int) : Ptime where
  day := ((clock + daysBefore 1970 * 86400).toNat) / 86400
  second := ((clock + daysBefore 1970 * 86400).toNat) % 86400
  second_lt := Nat.mod_lt _ (by decide)

/-- Seconds since 1970. -/
def seconds (time : Ptime) : Int :=
  ((time.day : Int) - daysBefore 1970) * 86400 + time.second

def plusSeconds (time : Ptime) (duration : Nat) : Ptime where
  day := time.day + (time.second + duration) / 86400
  second := (time.second + duration) % 86400
  second_lt := Nat.mod_lt _ (by decide)

def plusMonths (time : Ptime) (months : Nat) : Ptime :=
  { time with day := addMonths time.day months }

def year (time : Ptime) : Nat := monthOf time.day / 12

/-- `to_iso_extended_string` of a date that the calendar of the library has. -/
def toDateTime? (time : Ptime) : Option DateTime :=
  if h : 1400 ≤ time.year ∧ time.year ≤ 9999 then some {
    year := time.year
    month := monthOf time.day % 12 + 1
    day := dayOfMonth time.day + 1
    hour := time.second / 3600
    minute := time.second % 3600 / 60
    second := time.second % 60
    year_le := h.2
    month_range := by omega
    day_range := by
      have hlt := dayOfMonth_lt time.day
      have hlength := (lengthOf_bounds (monthOf time.day)).2
      omega
    hour_le := by
      have hlt := time.second_lt
      omega
    minute_le := by omega
    second_le := by omega }
  else none

theorem seconds_of_toDateTime? {time : Ptime} {date : DateTime}
    (h : time.toDateTime? = some date) : date.seconds = time.seconds := by
  rw [toDateTime?] at h
  split at h
  case isFalse => cases h
  cases h
  have hday := dayNumber_monthOf time.day
  have hsecond := time.second_lt
  rw [DateTime.seconds, secondsOf, seconds]
  dsimp only
  rw [year, hday]
  omega

/-- The date is one of the later month, in whatever year. -/
theorem month_of_plusMonths {time : Ptime} {months : Nat} {date : DateTime}
    (h : (time.plusMonths months).toDateTime? = some date) :
    12 * date.year + date.month = monthOf time.day + months + 1 := by
  rw [toDateTime?] at h
  split at h
  case isFalse => cases h
  cases h
  have hmonth : monthOf (time.plusMonths months).day = monthOf time.day + months :=
    monthOf_addMonths time.day months
  rw [← hmonth]
  dsimp only
  rw [year]
  omega

theorem seconds_ofClock {clock : Int} (h : 0 ≤ clock) :
    (ofClock clock).seconds = clock := by
  rw [ofClock, seconds]
  dsimp only
  generalize daysBefore 1970 = epoch
  have htotal : (((clock + epoch * 86400).toNat : Nat) : Int) =
      clock + epoch * 86400 := Int.toNat_of_nonneg (by omega)
  omega

@[simp] theorem seconds_plusSeconds (time : Ptime) (duration : Nat) :
    (time.plusSeconds duration).seconds = time.seconds + duration := by
  rw [seconds, seconds, plusSeconds]
  dsimp only
  generalize daysBefore 1970 = epoch
  omega

/-- The second of the day stays, and the day is one of the later month. -/
theorem seconds_plusMonths_bounds {months low high : Nat}
    (h : ∀ index, monthStart index + low ≤ monthStart (index + months) ∧
      monthStart (index + months) ≤ monthStart index + high) (time : Ptime) :
    time.seconds + low * 86400 ≤ (time.plusMonths months).seconds ∧
      (time.plusMonths months).seconds ≤ time.seconds + high * 86400 := by
  have hbounds := addMonths_bounds h time.day
  rw [seconds, seconds, plusMonths]
  dsimp only
  generalize daysBefore 1970 = epoch
  omega

end Ptime

inductive TimeUnit where
  | seconds
  | minutes
  | hours
  | days
  | months
  | years
  deriving DecidableEq, Repr

namespace TimeUnit

/-- The keys of `time_units`. -/
def ofText : String → Option TimeUnit
  | "seconds" => some .seconds
  | "minutes" => some .minutes
  | "hours" => some .hours
  | "days" => some .days
  | "months" => some .months
  | "years" => some .years
  | _ => none

def later (time : Ptime) (duration : Nat) : TimeUnit → Ptime
  | .seconds => time.plusSeconds duration
  | .minutes => time.plusSeconds (duration * 60)
  | .hours => time.plusSeconds (duration * 3600)
  | .days => time.plusSeconds (duration * 24 * 3600)
  | .months => time.plusMonths duration
  | .years => time.plusMonths (12 * duration)

/-- The fewest and the most seconds that the unit can last. -/
def least : TimeUnit → Nat
  | .seconds => 1
  | .minutes => 60
  | .hours => 3600
  | .days => 86400
  | .months => 28 * 86400
  | .years => 365 * 86400

def most : TimeUnit → Nat
  | .months => 31 * 86400
  | .years => 366 * 86400
  | unit => unit.least

theorem later_bounds (unit : TimeUnit) (time : Ptime) (duration : Nat) :
    time.seconds + duration * unit.least ≤ (unit.later time duration).seconds ∧
      (unit.later time duration).seconds ≤
        time.seconds + duration * unit.most := by
  cases unit with
  | seconds | minutes | hours | days =>
      simp only [later, least, most, Ptime.seconds_plusSeconds]
      omega
  | months =>
      have hbounds := Ptime.seconds_plusMonths_bounds
        (fun index => monthStart_add_bounds index duration) time
      simp only [later, least, most]
      omega
  | years =>
      have hbounds := Ptime.seconds_plusMonths_bounds
        (fun index => monthStart_years_bounds index duration) time
      simp only [later, least, most]
      omega

/-- Units other than months and years last as long as they do. -/
theorem later_eq {unit : TimeUnit} (h : unit.least = unit.most) (time : Ptime)
    (duration : Nat) :
    (unit.later time duration).seconds =
      time.seconds + duration * unit.least := by
  have hbounds := unit.later_bounds time duration
  rw [← h] at hbounds
  omega

end TimeUnit

/-- There is room for the duration: in hours it is an `int`, whatever the unit,
and in months it has 16 bits. -/
def TimeUnit.hasRoom (duration : Nat) : TimeUnit → Bool
  | .months => duration < 2 ^ 15
  | .years => 12 * duration < 2 ^ 15
  | _ => duration * 24 < 2 ^ 31

/-- The first second of the year 10000. -/
def endOfCalendar : Int := dayNumber 10000 1 1 * 86400

theorem le_endOfCalendar : 365 * 8030 * 86400 ≤ endOfCalendar := by
  have hjanuary : daysUpTo 10000 1 = 0 := rfl
  have hyears := (monthStart_years_bounds (12 * 1970) 8030).1
  rw [← Nat.mul_add, monthStart_year, monthStart_year] at hyears
  rw [endOfCalendar, dayNumber, hjanuary]
  generalize daysBefore 1970 = first at hyears ⊢
  generalize daysBefore 10000 = last at hyears ⊢
  omega

theorem Ptime.exists_toDateTime? {time : Ptime} (hstart : 0 ≤ time.seconds)
    (hend : time.seconds < endOfCalendar) :
    ∃ date, time.toDateTime? = some date := by
  rw [seconds] at hstart hend
  have hsecond := time.second_lt
  have hjanuary : daysUpTo 10000 1 = 0 := rfl
  rw [endOfCalendar, dayNumber, hjanuary, ← monthStart_year,
    ← monthStart_year] at hend
  rw [← monthStart_year] at hstart
  have hle := monthStart_monthOf_le time.day
  have hlt := lt_monthStart_monthOf_succ time.day
  have hlower : 12 * 1970 < monthOf time.day + 1 := by
    refine monthStart_strictMono.lt_iff_lt.mp ?_
    generalize monthStart (12 * 1970) = first at hstart hend ⊢
    generalize monthStart (monthOf time.day + 1) = next at hlt ⊢
    omega
  have hupper : monthOf time.day < 12 * 10000 := by
    refine monthStart_strictMono.lt_iff_lt.mp ?_
    generalize monthStart (12 * 1970) = first at hstart hend
    generalize monthStart (12 * 10000) = last at hend ⊢
    generalize monthStart (monthOf time.day) = this at hle ⊢
    omega
  exact ⟨_, dif_pos (by rw [year]; omega)⟩

section After

-- what is made of a duration that there is no room for
variable (overflowed : Nat → String → Except Fault String)

/-- `bad_year` is an `out_of_range`. -/
def getUtcTimestampAfterDuration (clock : Int) (duration : Nat)
    (timeUnit : String) : Except Fault String :=
  match TimeUnit.ofText timeUnit with
  | none => .error .invalidArgument
  | some unit =>
      if unit.hasRoom duration then
        match (unit.later (.ofClock clock) duration).toDateTime? with
        | none => .error .outOfBounds
        | some date => .ok date.text
      else overflowed duration timeUnit

/-- A text is written, which expires when the duration has passed. -/
theorem getUtcTimestampAfterDuration_expires {clock : Int} (hclock : 0 ≤ clock)
    {duration : Nat} {timeUnit : String} {unit : TimeUnit}
    (hunit : TimeUnit.ofText timeUnit = some unit)
    (hroom : unit.hasRoom duration = true)
    (hend : clock + duration * unit.most < endOfCalendar) :
    ∃ text ending,
      getUtcTimestampAfterDuration overflowed clock duration timeUnit = .ok text ∧
        clock + duration * unit.least ≤ ending ∧
          ending ≤ clock + duration * unit.most ∧
            ∀ later, isExpired later text = true ↔ ending ≤ later := by
  have hbounds := unit.later_bounds (.ofClock clock) duration
  rw [Ptime.seconds_ofClock hclock] at hbounds
  have hstart : 0 ≤ (unit.later (.ofClock clock) duration).seconds := by
    have hpositive : (0 : Int) ≤ duration * unit.least :=
      Int.mul_nonneg (Int.natCast_nonneg _) (Int.natCast_nonneg _)
    omega
  obtain ⟨date, hdate⟩ :=
    Ptime.exists_toDateTime? hstart (hbounds.2.trans_lt hend)
  refine ⟨date.text, _, ?_, hbounds.1, hbounds.2, fun later => ?_⟩
  · rw [getUtcTimestampAfterDuration, hunit]
    dsimp only
    rw [if_pos hroom, hdate]
  · rw [isExpired_iff, frontSeconds_text, Ptime.seconds_of_toDateTime? hdate]

end After

end Neroshop.Timestamp
