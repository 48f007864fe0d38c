import Mathlib.Data.Int.Order.Basic

/-!
# Timestamps

`is_expired` and `get_most_recent_timestamp` read "YYYY-MM-DDTHH:MM:SSZ" texts
with `std::get_time` and compare the instants `std::mktime` makes of them.
`get_time` keeps the fields it read before a failure.  `mktime` reads both
sides of a comparison in the local zone without daylight saving, so the zone's
offset cancels and the instants below are those of UTC.
-/

namespace Neroshop.Timestamp

/-- `std::tm`, with the year and the month counted as they are written. -/
structure Tm where
  year : Int := 1900
  month : Int := 1
  day : Int := 0
  hour : Int := 0
  minute : Int := 0
  second : Int := 0
  deriving DecidableEq, Repr

inductive Field where
  | year | month | day | hour | minute | second
  deriving DecidableEq, Repr

namespace Field

/-- Smallest value, largest value and number of digits that are read. -/
def range : Field → Nat × Nat × Nat
  | .year => (0, 9999, 4)
  | .month => (1, 12, 2)
  | .day => (1, 31, 2)
  | .hour => (0, 23, 2)
  | .minute => (0, 59, 2)
  | .second => (0, 60, 2)

def assign (tm : Tm) (value : Nat) : Field → Tm
  | .year => { tm with year := value }
  | .month => { tm with month := value }
  | .day => { tm with day := value }
  | .hour => { tm with hour := value }
  | .minute => { tm with minute := value }
  | .second => { tm with second := value }

end Field

inductive Directive where
  | number (field : Field)
  | literal (symbol : Char)
  deriving DecidableEq, Repr

/-- The format `%Y-%m-%dT%H:%M:%SZ`. -/
def format : List Directive :=
  [.number .year, .literal '-', .number .month, .literal '-', .number .day,
   .literal 'T', .number .hour, .literal ':', .number .minute, .literal ':',
   .number .second, .literal 'Z']

/-- Read at most `width` digits; a digit that exceeds `high` is not consumed. -/
def readDigits (high : Nat) : Nat → Nat → Nat → List Char →
    Nat × Nat × List Char
  | 0, value, count, text => (value, count, text)
  | _ + 1, value, count, [] => (value, count, [])
  | width + 1, value, count, symbol :: text =>
      if symbol.isDigit then
        let next := value * 10 + (symbol.toNat - '0'.toNat)
        if high < next then (next, count, symbol :: text)
        else readDigits high width next (count + 1) text
      else (value, count, symbol :: text)

def extractNum (field : Field) (text : List Char) :
    Option Nat × List Char :=
  let (low, high, width) := field.range
  let (value, count, rest) := readDigits high width 0 0 text
  (if 0 < count ∧ low ≤ value ∧ value ≤ high then some value else none, rest)

def isSpace (symbol : Char) : Bool :=
  symbol ∈ [' ', '\t', '\n', '\r', '\x0b', '\x0c']

/-- `%d` takes one blank before the day, the other fields take none. -/
def Field.afterBlank : Field → List Char → List Char
  | .day, head :: text => if isSpace head then text else head :: text
  | _, text => text

/-- `tolower` makes them equal, in the classic locale. -/
def sameLetter (symbol other : Char) : Bool := symbol.toLower = other.toLower

/--
Follow the format until it ends, the text ends or a directive fails.  Literals
match in either case.
-/
def getTimeFrom : List Directive → Tm → List Char → Tm
  | [], tm, _ => tm
  | _ :: _, tm, [] => tm
  | .literal symbol :: directives, tm, head :: text =>
      if sameLetter head symbol then getTimeFrom directives tm text else tm
  | .number field :: directives, tm, head :: text =>
      match extractNum field (field.afterBlank (head :: text)) with
      | (some value, rest) => getTimeFrom directives (field.assign tm value) rest
      | (none, _) => tm

/-- `ss >> std::get_time(&tm, format)` on a zeroed `tm`. -/
def getTime (text : String) : Tm :=
  getTimeFrom format {} (text.toList.dropWhile isSpace)

/-- A number takes all of its digits, and nothing is left of the text. -/
def matchesFrom : List Directive → List Char → Bool
  | [], text => text.isEmpty
  | .literal symbol :: directives, text =>
      text.head? = some symbol && matchesFrom directives text.tail
  | .number field :: directives, text =>
      let (low, high, width) := field.range
      let (value, count, rest) := readDigits high width 0 0 text
      count = width && low ≤ value && value ≤ high && matchesFrom directives rest

/-- The text has the form "YYYY-MM-DDTHH:MM:SSZ". -/
def isWellFormed (text : String) : Bool := matchesFrom format text.toList

def isLeap (year : Int) : Bool :=
  year % 4 = 0 ∧ (year % 100 ≠ 0 ∨ year % 400 = 0)

def daysBeforeYear (year : Int) : Int :=
  365 * (year - 1) + (year - 1) / 4 - (year - 1) / 100 + (year - 1) / 400

def daysInMonth (year : Int) (month : Nat) : Int :=
  match month with
  | 2 => if isLeap year then 29 else 28
  | 4 | 6 | 9 | 11 => 30
  | _ => 31

def daysBeforeMonth (year : Int) : Nat → Int
  | 0 => 0
  | 1 => 0
  | month + 1 => daysBeforeMonth year month + daysInMonth year month

/-- `std::mktime`, in seconds since 1970. -/
def mktime (tm : Tm) : Int :=
  (daysBeforeYear tm.year - 719162 + daysBeforeMonth tm.year tm.month.toNat +
      (tm.day - 1)) * 86400 +
    tm.hour * 3600 + tm.minute * 60 + tm.second

def instant (text : String) : Int := mktime (getTime text)

def isExpired (clock : Int) (expirationDate : String) : Bool :=
  instant expirationDate ≤ clock

def getMostRecentTimestamp (timestamp1 timestamp2 : String) : String :=
  if instant timestamp1 > instant timestamp2 then timestamp1 else timestamp2

/--
The second timestamp wins unless the first is later: equal instants, and equal
texts among them, leave the second.
-/
theorem getMostRecentTimestamp_eq_second {timestamp1 timestamp2 : String} :
    getMostRecentTimestamp timestamp1 timestamp2 = timestamp2 ↔
      instant timestamp1 ≤ instant timestamp2 := by
  unfold getMostRecentTimestamp
  split
  · next hlater =>
      refine ⟨fun heq => le_of_eq (congrArg instant heq), fun hle => ?_⟩
      exact absurd hlater (not_lt.mpr hle)
  · next hlater => exact ⟨fun _ => not_lt.mp hlater, fun _ => rfl⟩

example : instant "2024-02-29T12:30:05Z" = 1709209805 := by decide

example : instant "2024-02- 29t12:30:05z" = 1709209805 := by decide

example : isWellFormed "2024-02-29T12:30:05Z" = true ∧
    isWellFormed "2024-2-29T12:30:05Z" = false := by decide

end Neroshop.Timestamp
