import RecordStore.Utf8

/-!
# RecordStore.Date

Days of the Gregorian calendar from year 1 to year 9999.  A `Date` carries the proof that it
exists, so `Date.make` is the only way to one from numbers, and it names the first part that is out
of range.

Days are also counted: `Date.ordinal` is 1 on the first day of year 1, and `Date.ofOrdinal` finds
the day of a count.
-/

namespace RecordStore

namespace Calendar

/-- Whether a year has a 29th of February. -/
def isLeap (year : Nat) : Bool := year % 4 = 0 && (year % 100 ≠ 0 || year % 400 = 0)

/-- The lengths of the months of a year. -/
def monthLengths (year : Nat) : List Nat :=
  [31, if isLeap year then 29 else 28, 31, 30, 31, 30, 31, 31, 30, 31, 30, 31]

/-- The length of a month; a number that is no month has no days. -/
def daysInMonth (year month : Nat) : Nat :=
  if month = 0 then 0 else (monthLengths year)[month - 1]?.getD 0

/-- The days in all years before one. -/
def daysBeforeYear (year : Nat) : Nat :=
  let y := year - 1
  365 * y + y / 4 - y / 100 + y / 400

/-- The days of a year before one of its months. -/
def daysBeforeMonth (year month : Nat) : Nat :=
  ((monthLengths year).take (month - 1)).foldl Nat.add 0

/-- The year of a day count, and how many of its days are past on that day. -/
def yearOfDay (day : Nat) : Nat × Nat :=
  let n := day - 1
  let (n400, r400) := (n / 146097, n % 146097)
  let n100 := min (r400 / 36524) 3
  let r100 := r400 - 36524 * n100
  let (n4, r4) := (r100 / 1461, r100 % 1461)
  let n1 := min (r4 / 365) 3
  (400 * n400 + 100 * n100 + 4 * n4 + n1 + 1, r4 - 365 * n1)

/-- The month and the day of the month, given how many days are past since the month before the
first of the given lengths ended. -/
def monthOfDay (month past : Nat) : List Nat → Nat × Nat
  | [] => (month, past + 1)
  | length :: rest =>
    if past < length then (month, past + 1) else monthOfDay (month + 1) (past - length) rest

end Calendar

/-- A day. -/
structure Date where
  year : Nat
  month : Nat
  day : Nat
  valid : (1 ≤ year ∧ year ≤ 9999) ∧ (1 ≤ month ∧ month ≤ 12) ∧
    (1 ≤ day ∧ day ≤ Calendar.daysInMonth year month)
deriving DecidableEq

/-- Which part of a date is out of range. -/
inductive DateFault where
  | year (year : Nat)
  | month
  | day
deriving DecidableEq

/-- The wording of a date that does not exist. -/
def DateFault.message : DateFault → Text
  | year n => "year " ++ Text.ofNat n ++ " is out of range"
  | month => "month must be in 1..12"
  | day => "day is out of range for month"

namespace Date

/-- The day with the given numbers, if it exists. -/
def make (year month day : Nat) : Except DateFault Date :=
  if hy : 1 ≤ year ∧ year ≤ 9999 then
    if hm : 1 ≤ month ∧ month ≤ 12 then
      if hd : 1 ≤ day ∧ day ≤ Calendar.daysInMonth year month then
        .ok ⟨year, month, day, hy, hm, hd⟩
      else
        .error .day
    else
      .error .month
  else
    .error (.year year)

/-- Making a date from the numbers of a date gives it back. -/
theorem make_self (d : Date) : make d.year d.month d.day = .ok d := by
  simp [make, d.valid]

/-- The first day of all. -/
def first : Date := ⟨1, 1, 1, by decide⟩

instance : Inhabited Date := ⟨first⟩

/-- The count of a day, from 1 on the first day of year 1. -/
def ordinal (d : Date) : Nat :=
  Calendar.daysBeforeYear d.year + Calendar.daysBeforeMonth d.year d.month + d.day

/-- The day with a count from 1 on, if it is not past year 9999. -/
def ofOrdinal (n : Nat) : Except DateFault Date :=
  let (year, past) := Calendar.yearOfDay n
  let (month, day) := Calendar.monthOfDay 1 past (Calendar.monthLengths year)
  make year month day

/-- The day is the same as another or comes before it. -/
def ble (a b : Date) : Bool :=
  a.year < b.year || (a.year = b.year &&
    (a.month < b.month || (a.month = b.month && a.day ≤ b.day)))

/-- A number in decimal with at least `width` digits. -/
def padded (width n : Nat) : List Char :=
  let ds := Nat.toDigits 10 n
  List.replicate (width - ds.length) '0' ++ ds

/-- A day as text, `2026-05-01`. -/
def chars (d : Date) : List Char :=
  padded 4 d.year ++ ['-'] ++ padded 2 d.month ++ ['-'] ++ padded 2 d.day

/-- A day as text, `2026-05-01`. -/
def text (d : Date) : Text := Text.ofChars d.chars

end Date

end RecordStore
