import RecordStore.Timestamp
import RecordStore.Date.Reader

/-!
# RecordStore.Timestamp.Reader

Reading timestamps.  A timestamp is a day, then one character of any kind, then a time of day, then
an offset from universal time or nothing.  The time of day and the offset have the same form: hours,
minutes and seconds with colons or without, and a fraction behind a point or a comma.

    2026-05-01   2026-05-01T12:00   20260501T120000.5Z   2026-W18-5 12:00:00,25-05:30

Of a fraction, the digits past the sixth are dropped.  When an offset follows, what stands between
the time of day and the offset may be anything that does not look like more of the time.
-/

namespace RecordStore.Timestamp

/-- Why a text is no timestamp: it has no accepted form, or it names a time that does not exist, or
an offset of a day and more. -/
inductive ReadFault where
  | form
  | date (fault : DateFault)
  | hour
  | minute
  | second
  | offset (microseconds : Int)
deriving DecidableEq

/-- A duration in microseconds as messages show it: the days before or at it, and what it has of
seconds and microseconds past them. -/
def durationText (microseconds : Int) : Text :=
  let part (name : Text) (n : Int) : List Text :=
    if n = 0 then [] else [name ++ "=" ++ Text.ofInt n]
  let days := microseconds.fdiv 86400000000
  let rest := microseconds - days * 86400000000
  "datetime.timedelta(" ++ Text.join ", "
    (part "days" days ++ part "seconds" (rest / 1000000) ++ part "microseconds" (rest % 1000000))
    ++ ")"

/-- The wording of a text that names no time. -/
def ReadFault.message (raw : Text) : ReadFault → Text
  | form => "Invalid isoformat string: " ++ raw
  | date e => e.message
  | hour => "hour must be in 0..23"
  | minute => "minute must be in 0..59"
  | second => "second must be in 0..59"
  | offset n =>
    "offset must be a timedelta strictly between -timedelta(hours=24) and timedelta(hours=24), not "
      ++ durationText n ++ "."

/-! ## Days -/

/-- Whether a byte is a decimal digit. -/
def isDigitByte (b : UInt8) : Bool := 0x30 ≤ b && b ≤ 0x39

/-- How many bytes at the front of a text are its day. -/
def dayLength? (bs : Bytes) : Option Nat :=
  if bs.length < 7 then
    none
  else if bs.length = 7 then
    some 7
  else if bs[4]? = some 0x2D then
    if bs[5]? ≠ some 0x57 then
      some 10
    else if bs[8]? ≠ some 0x2D then
      some 8
    else if bs.length = 9 then
      none
    else
      some (if bs[10]?.any isDigitByte then 8 else 10)
  else if bs[4]? = some 0x57 then
    let stop := 7 + ((bs.drop 7).takeWhile isDigitByte).length
    some (if stop < 9 then stop else if stop % 2 = 0 then 7 else 8)
  else
    some 8

/-- What follows the character at the front of some bytes. -/
def dropCharacter : Bytes → Bytes
  | [] => []
  | b :: bs => bs.drop (if b < 0x80 then 0 else if b < 0xE0 then 1 else if b < 0xF0 then 2 else 3)

/-! ## Times of day -/

/-- A time of day or an offset as read: hours, minutes and seconds as far as given, microseconds,
and whether nothing is left. -/
structure Reading where
  units : List Nat
  micro : Nat
  complete : Bool

/-- Read a fraction of at least one digit. -/
def readFraction? (units : List Nat) (bs : Bytes) : Option Reading := do
  let digits := bs.take 6
  let (n, _) ← Date.digits? digits.length 0 digits
  return ⟨units, n * Nat.pow 10 (6 - digits.length), (bs.drop 6).all isDigitByte⟩

/-- Read hours, minutes and seconds, so many units being left, and the fraction behind them.  One
byte alone behind a unit is left over. -/
def readUnits? (colons : Bool) (units : List Nat) : Nat → Bytes → Option Reading
  | 0, bs => readFraction? units bs
  | left + 1, bs => do
    let (n, rest) ← Date.digits? 2 0 bs
    let units := units ++ [n]
    let colons := if units.length = 1 then rest.head? = some 0x3A else colons
    match rest with
    | [] => return ⟨units, 0, true⟩
    | [_] => return ⟨units, 0, false⟩
    | b :: more =>
      if colons ∧ b = 0x3A then readUnits? colons units left more
      else if b = 0x2E ∨ b = 0x2C then readFraction? units more
      else if !colons then readUnits? colons units left (b :: more)
      else none

/-- Read a time of day or an offset. -/
def readClock? (bs : Bytes) : Option Reading := readUnits? false [] 3 bs

/-- The hours, minutes and seconds of a reading. -/
def Reading.parts (r : Reading) : Nat × Nat × Nat :=
  (r.units[0]?.getD 0, r.units[1]?.getD 0, r.units[2]?.getD 0)

/-- The offset in microseconds that a reading is; less than a second is none. -/
def Reading.offset (r : Reading) : Nat :=
  let (h, m, s) := r.parts
  let seconds := 3600 * h + 60 * m + s
  if seconds = 0 then 0 else seconds * 1000000 + r.micro

/-- Whether a byte begins an offset. -/
def beginsOffset (b : UInt8) : Bool := b = 0x2B || b = 0x2D || b = 0x5A

/-- Read a time of day with its offset, in microseconds, if it has one. -/
def readTime? (bs : Bytes) : Option (Reading × Option Int) := do
  let r ← readClock? (bs.takeWhile fun b => !beginsOffset b)
  match bs.dropWhile fun b => !beginsOffset b with
  | [] => if r.complete then return (r, none) else none
  | 0x5A :: rest => if rest.isEmpty then return (r, some 0) else none
  | mark :: rest =>
    let o ← readClock? rest
    guard o.complete
    return (r, some (if mark = 0x2D then -(o.offset : Int) else o.offset))

/-! ## Timestamps -/

/-- The timestamp of a day and what was read as its time of day. -/
def ofReading (d : Date) (r : Reading) (offset : Option Int) : Except ReadFault Timestamp :=
  let (h, m, s) := r.parts
  if 23 < h then .error .hour
  else if 59 < m then .error .minute
  else if 59 < s then .error .second
  else
    let second := 3600 * h + 60 * m + s
    if valid : second < 86400 ∧ r.micro < 1000000 then
      .ok ⟨d, second, r.micro, offset, valid.1, valid.2⟩
    else
      .error .form

/-- Read a timestamp from bytes. -/
def ofBytes (bs : Bytes) : Except ReadFault Timestamp := do
  let some length := dayLength? bs | throw .form
  let day : Except DateFault Date ← match Date.ofBytes (bs.take length) with
    | .ok d => pure (.ok d)
    | .error (.range e) => pure (.error e)
    | .error .form => throw .form
  let some (r, offset) := (if bs.length ≤ length then some (⟨[], 0, true⟩, none)
      else readTime? (dropCharacter (bs.drop length)))
    | throw .form
  match offset with
  | some o => if 86400000000 ≤ o.natAbs then throw (.offset o)
  | none => pure ()
  match day with
  | .ok d => ofReading d r offset
  | .error e => throw (.date e)

/-- Where the character between day and time of day can stand. -/
def markPlaces : List Nat := [7, 8, 10]

/-- A text with a `T` for a lone surrogate between day and time of day. -/
def plainMark (t : Text) : Text :=
  match markPlaces.find? fun i => t[i]?.any fun g => g.toChar?.isNone with
  | some i => t.set i (.char 'T')
  | none => t

/-- Read a timestamp from a text. -/
def ofText (t : Text) : Except ReadFault Timestamp :=
  match Utf8.encode (plainMark t) with
  | .ok bs => ofBytes bs
  | .error _ => .error .form

end RecordStore.Timestamp
