/-
# Timestamps

Times are nanoseconds since the beginning of 1970, and they are shown as RFC 3339 texts in UTC:
`2024-02-29T00:00:00.12Z`.  A fraction of a second is written without trailing zeros, and a whole
second without a fraction.

The calendar is walked: whole years are taken off the days while there are enough of them, and
then whole months.
-/
import TraceRecorder.Text.Decimal

namespace TraceRecorder

/-! ## 1. The calendar -/

/-- A day of the calendar. -/
structure Date where
  year : Nat
  /-- Months and days count from one. -/
  month : Nat
  day : Nat
  deriving DecidableEq, Repr

namespace Date

def isLeap (year : Nat) : Bool := year % 4 == 0 && (year % 100 != 0 || year % 400 == 0)

/-- The days of the months of a year. -/
def monthLengths (year : Nat) : List Nat :=
  [31, if isLeap year then 29 else 28, 31, 30, 31, 30, 31, 31, 30, 31, 30, 31]

def yearLength (year : Nat) : Nat := if isLeap year then 366 else 365

/-- The month and the day that lie some days behind the first of a month. -/
def inMonths (month days : Nat) : List Nat → Nat × Nat
  | [] => (month, days + 1)
  | length :: rest =>
    if days < length then (month, days + 1) else inMonths (month + 1) (days - length) rest

/-- **The day that lies some days behind the first day of a year.** -/
def afterYear (year days : Nat) : Date :=
  if days < yearLength year then
    let (month, day) := inMonths 1 days (monthLengths year)
    ⟨year, month, day⟩
  else afterYear (year + 1) (days - yearLength year)
  termination_by days
  decreasing_by
    have h : 0 < yearLength year := by
      unfold yearLength
      split <;> omega
    omega

end Date

/-! ## 2. Texts -/

namespace Timestamp

/-- The part of a second behind the point, if there is any. -/
def fraction (nanoseconds : Nat) : String :=
  if nanoseconds = 0 then ""
  else
    let digits := (Decimal.padded 9 nanoseconds).toList
    "." ++ String.ofList (digits.reverse.dropWhile (· == '0')).reverse

def second : Nat := 1000000000

/-- **The RFC 3339 text of a time.** -/
def rfc3339 (nanoseconds : UInt64) : String :=
  let seconds := nanoseconds.toNat / second
  let date := Date.afterYear 1970 (seconds / 86400)
  Decimal.padded 4 date.year ++ "-" ++ Decimal.padded 2 date.month ++ "-"
    ++ Decimal.padded 2 date.day ++ "T"
    ++ Decimal.padded 2 (seconds / 3600 % 24) ++ ":"
    ++ Decimal.padded 2 (seconds / 60 % 60) ++ ":"
    ++ Decimal.padded 2 (seconds % 60)
    ++ fraction (nanoseconds.toNat % second) ++ "Z"

end Timestamp

end TraceRecorder
