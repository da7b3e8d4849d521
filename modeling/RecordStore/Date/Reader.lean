import RecordStore.Date

/-!
# RecordStore.Date.Reader

Reading days.  A day is written as year, month and day, or as year, week and weekday of the week
calendar, with or without dashes; a week without a weekday stands for its Monday.

    2026-05-01   20260501   2026-W18   2026W18   2026-W18-5   2026W185

A form has seven, eight or ten bytes.  Behind a form without dashes that is shorter than ten bytes,
a text of ten bytes may hold anything.
-/

namespace RecordStore.Date

/-- Why a text is no day: it has no accepted form, or it names a day that does not exist. -/
inductive ReadFault where
  | form
  | range (fault : DateFault)
deriving DecidableEq

/-- The decimal digits at the front of some bytes as a number, and what is left. -/
def digits? : Nat → Nat → Bytes → Option (Nat × Bytes)
  | 0, n, bs => some (n, bs)
  | _ + 1, _, [] => none
  | k + 1, n, b :: bs =>
    if 0x30 ≤ b ∧ b ≤ 0x39 then digits? k (10 * n + (b.toNat - 0x30)) bs else none

/-- Take a dash from the front of some bytes where the form has dashes. -/
def dash? (dashes : Bool) : Bytes → Option Bytes
  | bs => if dashes then Text.dropPrefix? [0x2D] bs else some bs

/-- The day count of the Monday of a year's first week, which is the week that holds the fourth of
January. -/
def firstMonday (year : Nat) : Nat :=
  let fourth := Calendar.daysBeforeYear year + 4
  fourth - (fourth + 6) % 7

/-- A year has a week 53 when it begins on a Thursday, or on a Wednesday and is a leap year. -/
def hasLongWeeks (year : Nat) : Bool :=
  let weekday := Calendar.daysBeforeYear year % 7
  weekday = 3 || (weekday = 2 && Calendar.isLeap year)

/-- The day of a week and a weekday.  Year 0 has weeks, but no day of it exists. -/
def ofWeek (year week weekday : Nat) : Except ReadFault Date :=
  if week = 0 ∨ 53 < week ∨ (week = 53 ∧ (year = 0 ∨ !hasLongWeeks year)) then
    .error .form
  else if weekday = 0 ∨ 7 < weekday then
    .error .form
  else if year = 0 then
    .error (.range .month)
  else
    (ofOrdinal (firstMonday year + 7 * (week - 1) + (weekday - 1))).mapError .range

/-- The week and the weekday behind a `W`: the weekday is the Monday when nothing follows. -/
def readWeek? (dashes : Bool) (bs : Bytes) : Option (Nat × Nat) := do
  let (week, bs) ← digits? 2 0 bs
  if bs.isEmpty then
    return (week, 1)
  let bs ← dash? dashes bs
  let (weekday, _) ← digits? 1 0 bs
  return (week, weekday)

/-- The month and the day behind a year. -/
def readMonth? (dashes : Bool) (bs : Bytes) : Option (Nat × Nat) := do
  let (month, bs) ← digits? 2 0 bs
  let bs ← dash? dashes bs
  let (day, _) ← digits? 2 0 bs
  return (month, day)

/-- Read a day from bytes. -/
def ofBytes (bs : Bytes) : Except ReadFault Date :=
  if bs.length = 7 ∨ bs.length = 8 ∨ bs.length = 10 then
    match digits? 4 0 bs with
    | none => .error .form
    | some (year, rest) =>
      let (dashes, rest) := match rest with
        | 0x2D :: rest => (true, rest)
        | rest => (false, rest)
      match rest with
      | 0x57 :: rest =>
        match readWeek? dashes rest with
        | none => .error .form
        | some (week, weekday) => ofWeek year week weekday
      | rest =>
        match readMonth? dashes rest with
        | none => .error .form
        | some (month, day) => (make year month day).mapError .range
  else
    .error .form

/-- Read a day from a text. -/
def ofText (t : Text) : Except ReadFault Date :=
  match Utf8.encode t with
  | .ok bs => ofBytes bs
  | .error _ => .error .form

end RecordStore.Date
