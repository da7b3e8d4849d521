import RecordStore.Header
import RecordStore.Text.Blank

/-!
# RecordStore.Header.Schema

The schema of headers: which record members make a header, and what is wrong with those that do
not.  Reading is lenient.  An integer may be given as a number without fraction, a truth value or a
numeral; a time as a date, a date with a time of day, or the seconds or milliseconds since 1970.

`Header.ofMembers` checks every field and reports one fault per bad field, in the order of the
fields.  `Header.toMembers` checks a header of a live item by the same rules and gives its fields as
a record holds them.
-/

namespace RecordStore

/-! ## Faults -/

/-- What is wrong with a timestamp. -/
inductive TimeFault where
  | wrongType
  | notANumber
  | tooLate
  | tooEarly
  | yearZero
  | textTooLate
  | textTooEarly
  | tooShort
  | badYear
  | badMonth
  | badDay
  | badSeparator
  | monthRange
  | dayRange
  | extraText
deriving DecidableEq

/-- What is wrong with a field of a header, or with the whole. -/
inductive SchemaFault where
  | missing
  | notText
  | notPlainText
  | emptyText
  | notInteger
  | notFinite
  | fractional
  | numeral
  | integerTooLarge
  | negative
  | time (fault : TimeFault)
  | notAnObject
deriving DecidableEq

/-- The wording of a bad timestamp. -/
def TimeFault.message (f : TimeFault) : Text :=
  match f with
  | wrongType => "Input should be a valid datetime"
  | notANumber => "Input should be a valid datetime, NaN values not permitted"
  | tooLate => "Input should be a valid datetime, " ++ late
  | tooEarly => "Input should be a valid datetime, " ++ early
  | yearZero => "Input should be a valid datetime, year 0 is out of range"
  | textTooLate => text ++ late
  | textTooEarly => text ++ early
  | tooShort => text ++ "input is too short"
  | badYear => text ++ "invalid character in year"
  | badMonth => text ++ "invalid character in month"
  | badDay => text ++ "invalid character in day"
  | badSeparator => text ++ "invalid date separator, expected `-`"
  | monthRange => text ++ "month value is outside expected range of 1-12"
  | dayRange => text ++ "day value is outside expected range"
  | extraText => text ++ "unexpected extra characters at the end of the input"
where
  text : Text := "Input should be a valid datetime or date, "
  late : Text := "dates after 9999 are not supported as unix timestamps"
  early : Text := "dates before 0000 are not supported as unix timestamps"

/-- The wording of a bad field. -/
def SchemaFault.message : SchemaFault → Text
  | missing => "Field required"
  | notText => "Input should be a valid string"
  | notPlainText => "Input should be a valid string, unable to parse raw data as a unicode string"
  | emptyText => "String should have at least 1 character"
  | notInteger => "Input should be a valid integer"
  | notFinite => "Input should be a finite number"
  | fractional => "Input should be a valid integer, got a number with a fractional part"
  | numeral => "Input should be a valid integer, unable to parse string as an integer"
  | integerTooLarge => "Unable to parse input string as an integer, exceeded maximum size"
  | negative => "Input should be greater than or equal to 0"
  | time f => f.message
  | notAnObject => "Input should be a valid dictionary or instance of ItemBaseForSerde"

namespace Schema

/-- What a field is read as. -/
abbrev Check (α : Type) := Except SchemaFault α

/-! ## Texts -/

/-- A name: a text without lone surrogates, not empty. -/
def name : Json → Check Text
  | .str t =>
    if t.toChars?.isNone then .error .notPlainText
    else if t.isEmpty then .error .emptyText
    else .ok t
  | _ => .error .notText

/-- An author: any text, or null. -/
def author : Json → Check (Option Text)
  | .null => .ok none
  | .str t => .ok (some t)
  | _ => .error .notText

/-! ## Integers -/

/-- A blank at the ends of a numeral: white space, but no information separator. -/
def isSpace (c : Char) : Bool :=
  (Glyph.char c).isBlank && !(0x1C ≤ c.toNat && c.toNat ≤ 0x1F)

/-- Characters without blanks at the ends. -/
def trim (cs : List Char) : List Char :=
  ((cs.dropWhile isSpace).reverse.dropWhile isSpace).reverse

/-- The sign at the front of a numeral: whether it is a minus, and what is left. -/
def sign : List Char → Bool × List Char
  | '-' :: cs => (true, cs)
  | '+' :: cs => (false, cs)
  | cs => (false, cs)

/-- What is left of a numeral after a zero in front, given the character before it.  Zeros and
underscores are skipped up to a digit or a minus sign; the last of them stays when nothing follows,
or a point. -/
def skipZeros? (last : Char) : List Char → Option (List Char)
  | [] => some [last]
  | c :: cs =>
    if c = '0' ∨ c = '_' then skipZeros? c cs
    else if c.isDigit ∨ c = '-' then some (c :: cs)
    else if c = '.' then some (last :: c :: cs)
    else none

/-- A numeral without the zeros in front; a numeral begins with a digit. -/
def dropZeros? : List Char → Option (List Char)
  | [] => none
  | c :: cs => if c = '0' then skipZeros? c cs else if c.isDigit then some (c :: cs) else none

/-- A numeral without a point and zeros at its end. -/
def dropDecimals (cs : List Char) : List Char :=
  match Text.cutAt? ['.'] cs with
  | some (whole, zeros) => if zeros ≠ [] ∧ zeros.all (· == '0') then whole else cs
  | none => cs

/-- Whether two underscores stand side by side. -/
def hasDoubleUnderscore : List Char → Bool
  | '_' :: '_' :: _ => true
  | _ :: cs => hasDoubleUnderscore cs
  | [] => false

/-- A numeral without the underscores in it, which must be inside and single. -/
def dropUnderscores (cs : List Char) : List Char :=
  if cs.head? = some '_' ∨ cs.getLast? = some '_' ∨ hasDoubleUnderscore cs then cs
  else cs.filter (· ≠ '_')

/-- A numeral in plain form: no blanks at the ends, no plus sign, no zeros in front, no decimals and
no underscores. -/
def plainNumeral? (cs : List Char) : Option (List Char) :=
  let (negative, cs) := sign (trim cs)
  (dropZeros? cs).map fun cs =>
    let digits := dropUnderscores (dropDecimals cs)
    if negative then '-' :: digits else digits

/-- The number that decimal digits stand for. -/
def natOfDigits (ds : List Char) : Nat := ds.foldl (fun n d => 10 * n + (d.toNat - '0'.toNat)) 0

/-- The most digits of a numeral. -/
def numeralLimit : Nat := 4300

/-- A numeral in plain form: whether it has a minus sign, and what is behind it. -/
def minusSign : List Char → Bool × List Char
  | '-' :: cs => (true, cs)
  | cs => (false, cs)

/-- Whether a text begins as a number in plain form does, with more digits than a numeral may
have. -/
def beginsTooLong (cs : List Char) : Bool :=
  let run := (minusSign cs).2.takeWhile Char.isDigit
  run.head? ≠ some '0' && numeralLimit < run.length

/-- The integer of a numeral in plain form: a minus sign or none, and digits without zeros in
front. -/
def integerOfPlain? (cs : List Char) : Option Int :=
  let (negative, digits) := minusSign cs
  if digits = [] ∨ !digits.all Char.isDigit ∨ numeralLimit < digits.length
      ∨ (digits.head? = some '0' ∧ 1 < digits.length) then
    none
  else
    let n : Int := natOfDigits digits
    some (if negative then -n else n)

/-- An integer from a numeral.  That a numeral is too long is told only when it begins in plain form
as it stands, also without a blank in front; any other is then no numeral at all. -/
def integerOfNumeral (cs : List Char) : Check Int :=
  if beginsTooLong cs then .error .integerTooLarge
  else ((plainNumeral? cs).bind integerOfPlain?).elim (.error .numeral) .ok

/-- An integer: an integer, a number without fraction, a truth value or a numeral. -/
def integer : Json → Check Int
  | .int n => .ok n
  | .bool b => .ok (if b then 1 else 0)
  | .float x =>
    match x.fraction? with
    | none => .error .notFinite
    | some _ =>
      match x.toInt? with
      | none => .error .fractional
      | some n => if n.natAbs < Binary64.wordLimit then .ok n else .error .integerTooLarge
  | .str t =>
    match t.toChars? with
    | none => .error .notPlainText
    | some cs => integerOfNumeral cs
  | _ => .error .notInteger

/-- A revision: an integer that is not negative. -/
def revision (v : Json) : Check Int :=
  match integer v with
  | .ok n => if n < 0 then .error .negative else .ok n
  | .error e => .error e

/-- A parent revision: any integer, or null. -/
def parentRevision : Json → Check (Option Int)
  | .null => .ok none
  | v => (integer v).map some

/-! ## Times as numbers -/

/-- Numbers up to this size count seconds, larger ones milliseconds. -/
def secondsLimit : Nat := 20000000000

/-- The first second of year 0 and the last of year 9999, counted from 1970. -/
def unixRange : Int × Int := (-62167219200, 253402300799)

/-- The day count of the first day of 1970. -/
def unixDay : Int := 719163

/-- The instant some microseconds after 1970 began. -/
def ofUnix (microseconds : Int) : Except TimeFault Timestamp :=
  let seconds := microseconds.fdiv 1000000
  if seconds < unixRange.1 then .error .tooEarly
  else if unixRange.2 < seconds then .error .tooLate
  else (Timestamp.ofShown (microseconds + unixDay * 86400 * 1000000) (some 0)).mapError fun _ =>
    .yearZero

/-- The instant of an integer count of seconds or milliseconds. -/
def timeOfInt (n : Int) : Except TimeFault Timestamp :=
  ofUnix (if n.natAbs ≤ secondsLimit then n * 1000000 else n * 1000)

/-- The integer nearest to a number, a half going up. -/
def nearest (x : Binary64) : Int :=
  match x.fraction? with
  | some (n, d) => (2 * n + d).fdiv (2 * d)
  | none => 0

/-- The instant of a floating-point count of seconds or milliseconds.  The part of a second is
worked out in floating-point numbers, so their rounding shows in its last digit; the milliseconds
that are in range are rounded exactly. -/
def timeOfFloat (x : Binary64) : Except TimeFault Timestamp :=
  match x with
  | .nan => .error .notANumber
  | .infinite negative => .error (if negative then .tooEarly else .tooLate)
  | x =>
    match x.fraction? with
    | none => .error .wrongType
    | some (n, d) =>
      if n.natAbs ≤ secondsLimit * d then
        let seconds := n.fdiv d
        ofUnix (seconds * 1000000 + nearest ((x.shifted (-seconds)).scaled 1000000))
      else
        ofUnix ((2 * (n * 1000) + d).fdiv (2 * d))

/-! ## Times as text -/

/-- Two decimal digits at the front of a text, and what is left. -/
def twoDigits? : List Char → Option (Nat × List Char)
  | a :: b :: cs =>
    if a.isDigit ∧ b.isDigit then some (natOfDigits [a, b], cs) else none
  | _ => none

/-- The date at the front of a text, as year, month, day and what is left. -/
def datePart (cs : List Char) : Except TimeFault (Nat × Nat × Nat × List Char) := do
  if (Utf8.encodeChars cs).length < 10 then
    throw .tooShort
  let (century, cs) ← (twoDigits? cs).elim (throw .badYear) pure
  let (year, cs) ← (twoDigits? cs).elim (throw .badYear) pure
  let cs ← (Text.dropPrefix? ['-'] cs).elim (throw .badSeparator) pure
  let (month, cs) ← (twoDigits? cs).elim (throw .badMonth) pure
  let cs ← (Text.dropPrefix? ['-'] cs).elim (throw .badSeparator) pure
  let (day, cs) ← (twoDigits? cs).elim (throw .badDay) pure
  let year := 100 * century + year
  if month < 1 ∨ 12 < month then
    throw .monthRange
  if day < 1 ∨ Calendar.daysInMonth year month < day then
    throw .dayRange
  return (year, month, day, cs)

/-- The second of a minute with its fraction at the front of a text: seconds, microseconds and what
is left.  Digits past the sixth decimal are dropped. -/
def secondPart? (cs : List Char) : Option (Nat × Nat × List Char) := do
  let (second, cs) ← twoDigits? cs
  guard (second < 60)
  match cs with
  | c :: rest =>
    if c = '.' ∨ c = ',' then
      let digits := rest.takeWhile Char.isDigit
      guard (digits ≠ [])
      let six := digits.take 6 ++ List.replicate (6 - digits.length) '0'
      return (second, natOfDigits six, rest.dropWhile Char.isDigit)
    else
      return (second, 0, cs)
  | [] => return (second, 0, [])

/-- The offset at the end of a text, in microseconds: none when nothing is left. -/
def offsetPart? : List Char → Option (Option Int)
  | [] => some none
  | ['Z'] => some (some 0)
  | ['z'] => some (some 0)
  | c :: cs => do
    guard (c = '+' ∨ c = '-' ∨ c = '−')
    let (hours, cs) ← twoDigits? cs
    let (minutes, cs) ← twoDigits? (match cs with | ':' :: cs => cs | cs => cs)
    guard (cs = [] ∧ minutes < 60 ∧ hours < 24)
    let offset : Int := 1000000 * (3600 * hours + 60 * minutes : Nat)
    return some (if c = '+' then offset else -offset)

/-- The time of day behind a date: seconds, microseconds and the offset. -/
def clockPart? : List Char → Option (Nat × Nat × Option Int)
  | mark :: cs => do
    guard (mark = 'T' ∨ mark = 't' ∨ mark = ' ' ∨ mark = '_')
    let (hour, cs) ← twoDigits? cs
    let cs ← Text.dropPrefix? [':'] cs
    let (minute, cs) ← twoDigits? cs
    guard (hour < 24 ∧ minute < 60)
    let (second, micro, cs) ← match cs with
      | ':' :: cs => secondPart? cs
      | cs => some (0, 0, cs)
    let offset ← offsetPart? cs
    return (3600 * hour + 60 * minute + second, micro, offset)
  | [] => none

/-- A timestamp from its parts; the only date in range that does not exist is one of year 0. -/
def ofParts (year month day second micro : Nat) (offset : Option Int) :
    Except TimeFault Timestamp :=
  match Date.make year month day with
  | .error _ => .error .yearZero
  | .ok d =>
    if h : second < 86400 ∧ micro < 1000000 then
      .ok ⟨d, second, micro, offset, h.1, h.2⟩
    else
      .error .wrongType

/-- A timestamp from a date with or without a time of day. -/
def timeOfDate (cs : List Char) : Except TimeFault Timestamp := do
  let (year, month, day, rest) ← datePart cs
  match rest with
  | [] => ofParts year month day 0 0 none
  | rest =>
    match clockPart? rest with
    | some (second, micro, offset) => ofParts year month day second micro offset
    | none => throw .extraText

/-- The exponent at the end of a decimal, zero when nothing is left. -/
def exponentPart? : List Char → Option Int
  | [] => some 0
  | c :: cs =>
    let (negative, digits) := sign cs
    if (c = 'e' ∨ c = 'E') ∧ digits ≠ [] ∧ digits.all Char.isDigit then
      some (if negative then -(natOfDigits digits : Int) else natOfDigits digits)
    else
      none

/-- The number that a text is. -/
inductive TextNumber where
  | whole (n : Int)
  | decimal (x : Binary64)

/-- The number that a text is, if it is one: an integer of 64 bits, or a decimal of any length with
a point in it, which an exponent may follow. -/
def textNumber? (cs : List Char) : Option TextNumber := do
  let (negative, cs) := sign cs
  let whole := cs.takeWhile Char.isDigit
  match cs.dropWhile Char.isDigit with
  | [] =>
    let n : Int := if negative then -(natOfDigits whole : Int) else natOfDigits whole
    guard (whole ≠ [] ∧ -(Binary64.wordLimit : Int) ≤ n ∧ n < Binary64.wordLimit)
    return .whole n
  | '.' :: rest =>
    let decimals := rest.takeWhile Char.isDigit
    guard (whole ++ decimals ≠ [])
    let exponent ← exponentPart? (rest.dropWhile Char.isDigit)
    return .decimal (.ofDecimal negative (natOfDigits (whole ++ decimals))
      (exponent - decimals.length))
  | _ => none

/-- A timestamp from a text. -/
def timeOfText (cs : List Char) : Except TimeFault Timestamp :=
  match textNumber? cs with
  | none => timeOfDate cs
  | some (.whole n) => (timeOfInt n).mapError fun
    | .tooLate => .textTooLate
    | .tooEarly => .textTooEarly
    | e => e
  | some (.decimal x) =>
    match timeOfFloat x with
    | .error .tooLate | .error .tooEarly => timeOfDate cs
    | r => r

/-- The instant of an integer; one past the largest floating-point number is no time at all. -/
def timeOfInteger (n : Int) : Except TimeFault Timestamp :=
  match Binary64.ofSigned n 1 with
  | .infinite _ => .error .wrongType
  | _ => timeOfInt n

/-- A time, or null. -/
def time : Json → Check (Option Timestamp)
  | .null => .ok none
  | .int n => ((timeOfInteger n).map some).mapError .time
  | .float x => ((timeOfFloat x).map some).mapError .time
  | .str t =>
    match t.toChars? with
    | none => .error .notPlainText
    | some cs => ((timeOfText cs).map some).mapError .time
  | _ => .error (.time .wrongType)

/-- The fault of a check that failed. -/
def faultOf : Check α → List SchemaFault
  | .ok _ => []
  | .error e => [e]

end Schema

namespace Header

/-- A member of a record, or what stands for one that is missing. -/
def field (name : Text) (default : Schema.Check α) (check : Json → Schema.Check α)
    (ms : Members) : Schema.Check α :=
  match ms.get? name with
  | none => default
  | some v => check v

/-- The header of a record, or one fault for each bad field. -/
def ofMembers (ms : Members) : Except (List SchemaFault) Header :=
  let ident := field "ident" (.error .missing) Schema.name ms
  let kind := field "kind" (.error .missing) Schema.name ms
  let revision := field "revision" (.ok 0) Schema.revision ms
  let parent := field "parent_revision" (.ok none) Schema.parentRevision ms
  let createdAt := field "created_at" (.ok none) Schema.time ms
  let modifiedAt := field "modified_at" (.ok none) Schema.time ms
  let createdBy := field "created_by" (.ok none) Schema.author ms
  let updatedBy := field "updated_by" (.ok none) Schema.author ms
  match ident, kind, revision, parent, createdAt, modifiedAt, createdBy, updatedBy with
  | .ok ident, .ok kind, .ok revision, .ok parent, .ok createdAt, .ok modifiedAt, .ok createdBy,
      .ok updatedBy =>
    .ok { ident, kind := .word kind, revision := .value revision, parentRevision := .value parent,
          createdAt, modifiedAt, createdBy := .value createdBy, updatedBy := .value updatedBy }
  | _, _, _, _, _, _, _, _ =>
    .error (Schema.faultOf ident ++ Schema.faultOf kind ++ Schema.faultOf revision
      ++ Schema.faultOf parent ++ Schema.faultOf createdAt ++ Schema.faultOf modifiedAt
      ++ Schema.faultOf createdBy ++ Schema.faultOf updatedBy)

/-- Check an attribute by the rule for the field it becomes. -/
def checked (check : Json → Schema.Check α) : Attribute α → Schema.Check α
  | .value a => .ok a
  | .malformed v => check v

/-- A time as a record holds it. -/
def timeJson : Option Timestamp → Json
  | none => .null
  | some t => .str t.recordText

/-- The header as record members, or one fault for each field that no record may hold. -/
def toMembers (h : Header) : Except (List SchemaFault) Members :=
  let ident := Schema.name (.str h.ident)
  let kind := Schema.name (.str h.kind.name)
  let revision := Schema.revision h.revisionJson
  let parent := checked Schema.parentRevision h.parentRevision
  let createdBy := checked Schema.author h.createdBy
  let updatedBy := checked Schema.author h.updatedBy
  match ident, kind, revision, parent, createdBy, updatedBy with
  | .ok ident, .ok kind, .ok revision, .ok parent, .ok createdBy, .ok updatedBy =>
    .ok [("ident", .str ident), ("kind", .str kind), ("revision", .int revision),
      ("parent_revision", .ofInt? parent), ("created_at", timeJson h.createdAt),
      ("modified_at", timeJson h.modifiedAt), ("created_by", .ofText? createdBy),
      ("updated_by", .ofText? updatedBy)]
  | _, _, _, _, _, _ =>
    .error (Schema.faultOf ident ++ Schema.faultOf kind ++ Schema.faultOf revision
      ++ Schema.faultOf parent ++ Schema.faultOf createdBy ++ Schema.faultOf updatedBy)

end Header

end RecordStore
