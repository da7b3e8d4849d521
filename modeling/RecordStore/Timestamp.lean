import RecordStore.Date

/-!
# RecordStore.Timestamp

Points in time, as a day and a time of day to the microsecond.  A timestamp with an offset from
universal time stands for an instant; one without is local to nowhere.  Two timestamps with offsets
compare by their instants and two without by what they show; one of each can not be ordered and are
never equal.

Two texts exist.  `Timestamp.text` shows the offset as hours and minutes, with seconds and decimals
when it has some.  `Timestamp.recordText`, the form of stored records, rounds the offset to a
second, writes `Z` when that is zero, and shows hours and minutes only.
-/

namespace RecordStore

/-- A day, the seconds and microseconds past on it, and an offset from universal time in
microseconds. -/
structure Timestamp where
  date : Date
  second : Nat
  microsecond : Nat
  offset : Option Int
  second_lt : second < 86400
  microsecond_lt : microsecond < 1000000
deriving DecidableEq

namespace Timestamp

/-- The earliest instant. -/
def earliest : Timestamp := ⟨.first, 0, 0, some 0, by decide, by decide⟩

instance : Inhabited Timestamp := ⟨earliest⟩

/-! ## Order -/

/-- Microseconds of what the timestamp shows, counted from day zero. -/
def shown (t : Timestamp) : Int :=
  ((t.date.ordinal * 86400 + t.second : Nat) : Int) * 1000000 + t.microsecond

/-- Microseconds of universal time, for a timestamp with an offset. -/
def instant? (t : Timestamp) : Option Int := t.offset.map fun o => t.shown - o

/-- Order in time, where there is one. -/
def compare? (a b : Timestamp) : Option Ordering :=
  match a.instant?, b.instant? with
  | some x, some y => some (compare x y)
  | none, none => some (compare a.shown b.shown)
  | _, _ => none

/-- The same point in time. -/
def same (a b : Timestamp) : Bool := a.compare? b == some .eq

/-! ## Moving -/

/-- The timestamp that shows a count of microseconds, if its day exists. -/
def ofShown (n : Int) (offset : Option Int) : Except DateFault Timestamp :=
  let seconds := n.fdiv 1000000
  let days := seconds.fdiv 86400
  if days ≤ 0 then
    .error (.year 0)
  else
    (Date.ofOrdinal days.toNat).map fun d =>
      ⟨d, seconds.toNat % 86400, n.toNat % 1000000, offset,
        Nat.mod_lt _ (by decide), Nat.mod_lt _ (by decide)⟩

/-- The timestamp some microseconds later, with the same offset. -/
def later (t : Timestamp) (microseconds : Int) : Except DateFault Timestamp :=
  ofShown (t.shown + microseconds) t.offset

/-! ## Texts -/

/-- Day and time of day, with six decimals when there are microseconds. -/
def localChars (t : Timestamp) : List Char :=
  t.date.chars ++ ['T'] ++ Date.padded 2 (t.second / 3600) ++ [':']
    ++ Date.padded 2 (t.second / 60 % 60) ++ [':'] ++ Date.padded 2 (t.second % 60)
    ++ if t.microsecond = 0 then [] else '.' :: Date.padded 6 t.microsecond

/-- A count of seconds as a sign, hours and minutes. -/
def offsetChars (negative : Bool) (seconds : Nat) : List Char :=
  [if negative then '-' else '+'] ++ Date.padded 2 (seconds / 3600) ++ [':']
    ++ Date.padded 2 (seconds / 60 % 60)

/-- An offset with what it has of seconds and microseconds. -/
def fullOffsetChars (offset : Int) : List Char :=
  let (seconds, micro) := (offset.natAbs / 1000000, offset.natAbs % 1000000)
  offsetChars (offset < 0) seconds
    ++ (if seconds % 60 = 0 ∧ micro = 0 then [] else ':' :: Date.padded 2 (seconds % 60))
    ++ if micro = 0 then [] else '.' :: Date.padded 6 micro

/-- A timestamp as text, `2026-05-01T12:00:00+02:00`. -/
def text (t : Timestamp) : Text :=
  Text.ofChars (t.localChars ++ (t.offset.map fullOffsetChars).getD [])

/-- An offset as records hold it. -/
def recordOffsetChars (offset : Int) : List Char :=
  let seconds := (2 * offset.natAbs + 1000000) / 2000000
  if seconds = 0 then ['Z'] else offsetChars (offset < 0) seconds

/-- A timestamp as records hold it, `2026-05-01T12:00:00Z`. -/
def recordText (t : Timestamp) : Text :=
  Text.ofChars (t.localChars ++ (t.offset.map recordOffsetChars).getD [])

end Timestamp

end RecordStore
