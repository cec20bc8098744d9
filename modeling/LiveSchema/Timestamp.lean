/-! Dates with a time of day and no zone. The text is the one used inside literals and for bound
arguments: the date, a blank and the time, in whole seconds. -/
namespace LiveSchema

def isLeapYear (year : Int) : Bool := year % 4 == 0 && (year % 100 != 0 || year % 400 == 0)

def daysInMonth (year : Int) (month : Nat) : Nat :=
  match month with
  | 1 | 3 | 5 | 7 | 8 | 10 | 12 => 31
  | 4 | 6 | 9 | 11 => 30
  | 2 => if isLeapYear year then 29 else 28
  | _ => 0

/-- A nanosecond of a thousand million or more stands for a leap second, on second 59 only. -/
def isCalendarTime (year : Int) (month day hour minute second nanosecond : Nat) : Bool :=
  1 ≤ day && day ≤ daysInMonth year month && hour < 24 && minute < 60 && second < 60 &&
    (nanosecond < 1000000000 || (second == 59 && nanosecond < 2000000000))

structure Timestamp where
  year : Int
  month : Nat
  day : Nat
  hour : Nat
  minute : Nat
  second : Nat
  nanosecond : Nat
  valid : isCalendarTime year month day hour minute second nanosecond = true
  deriving DecidableEq, Repr

namespace Timestamp

def epoch : Timestamp := ⟨1970, 1, 1, 0, 0, 0, 0, by decide⟩

def ofFields? (year : Int) (month day hour minute second nanosecond : Nat) : Option Timestamp :=
  if h : isCalendarTime year month day hour minute second nanosecond = true
  then some ⟨year, month, day, hour, minute, second, nanosecond, h⟩ else none

def shownSecond (t : Timestamp) : Nat := t.second + t.nanosecond / 1000000000

theorem shownSecondMost (t : Timestamp) : t.shownSecond ≤ 60 := by
  have h := t.valid
  simp only [isCalendarTime, Bool.and_eq_true, Bool.or_eq_true, decide_eq_true_eq,
    beq_iff_eq] at h
  unfold shownSecond
  omega

def padded (width n : Nat) : List Char :=
  let digits := Nat.toDigits 10 n
  List.replicate (width - digits.length) '0' ++ digits

/-- Four digits at least; a year outside 0 to 9999 has its sign in front. -/
def yearText (year : Int) : List Char :=
  if year < 0 then '-' :: padded 4 year.natAbs
  else if 9999 < year then '+' :: padded 4 year.natAbs
  else padded 4 year.natAbs

def chars (t : Timestamp) : List Char :=
  yearText t.year ++ '-' :: padded 2 t.month ++ '-' :: padded 2 t.day ++ ' ' :: padded 2 t.hour ++
    ':' :: padded 2 t.minute ++ ':' :: padded 2 t.shownSecond

def text (t : Timestamp) : String := String.ofList t.chars

end Timestamp

end LiveSchema
