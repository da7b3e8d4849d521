import RecordStore.Json

/-!
# RecordStore.Json.Reader

Reading JSON text.  The reader takes the glyphs of the text and gives the value or the first
fault.  Every step returns what is left of the text, and a fault keeps what was left where it was
found, so that its place can be told as line, column and offset.

Beyond the standard grammar the words `NaN`, `Infinity` and `-Infinity` are numbers, half of a
surrogate pair may stand or be escaped on its own, and the last value of a repeated key counts.  A
number with a fraction or an exponent is a floating-point number, any other an integer, which may
have `digitLimit` digits at most.
-/

namespace RecordStore.Json

/-! ## Faults -/

/-- What is wrong with a text at some place of it. -/
inductive Problem where
  | byteOrderMark
  | expectedValue
  | extraData
  | expectedPropertyName
  | expectedColon
  | expectedComma
  | unterminatedString
  | controlCharacter
  | badEscape
  | badUnicodeEscape
deriving DecidableEq

/-- The wording of a problem. -/
def Problem.message : Problem → Text
  | byteOrderMark => "Unexpected UTF-8 BOM (decode using utf-8-sig)"
  | expectedValue => "Expecting value"
  | extraData => "Extra data"
  | expectedPropertyName => "Expecting property name enclosed in double quotes"
  | expectedColon => "Expecting ':' delimiter"
  | expectedComma => "Expecting ',' delimiter"
  | unterminatedString => "Unterminated string starting at"
  | controlCharacter => "Invalid control character at"
  | badEscape => "Invalid \\escape"
  | badUnicodeEscape => "Invalid \\uXXXX escape"

/-- The most digits that an integer may have in a text. -/
def digitLimit : Nat := 4300

/-- A fault while reading: a problem with what is left of the text from its place on, or an integer
with too many digits. -/
inductive Fault where
  | problem (kind : Problem) (rest : Text)
  | longInteger (digits : Nat)

/-- A place in a text: the line and the column from one, the offset from zero. -/
structure Place where
  line : Nat
  column : Nat
  offset : Nat
deriving DecidableEq

/-- The place behind a text; only a line feed ends a line. -/
def Place.behind (before : Text) : Place where
  line := before.count (.char '\n') + 1
  column := (before.reverse.takeWhile (· ≠ .char '\n')).length + 1
  offset := before.length

/-- Why a text could not be read. -/
inductive ReadError where
  | malformed (kind : Problem) (place : Place)
  | longInteger (digits : Nat)
deriving DecidableEq

/-- The message of an unreadable text. -/
def ReadError.message : ReadError → Text
  | malformed kind place =>
    kind.message ++ ": line " ++ Text.ofNat place.line ++ " column " ++ Text.ofNat place.column
      ++ " (char " ++ Text.ofNat place.offset ++ ")"
  | longInteger digits =>
    "Exceeds the limit (" ++ Text.ofNat digitLimit
      ++ " digits) for integer string conversion: value has " ++ Text.ofNat digits
      ++ " digits; use sys.set_int_max_str_digits() to increase the limit"

/-- What is read from the front of a text, and what is left. -/
abbrev Reading (α : Type) := Except Fault (α × Text)

/-! ## Blanks and digits -/

/-- The blanks between the parts of a JSON text. -/
def isSpace (g : Glyph) : Bool :=
  g = .char ' ' || g = .char '\t' || g = .char '\n' || g = .char '\r'

/-- A text without the blanks at its front. -/
def skipSpace (t : Text) : Text := t.dropWhile isSpace

/-- A decimal digit. -/
def isDigit : Glyph → Bool
  | .char c => c.isDigit
  | .surrogate _ => false

/-- The value of a decimal digit. -/
def digitValue (g : Glyph) : Nat := g.code - '0'.toNat

/-- The number that decimal digits stand for. -/
def natOfDigits (ds : Text) : Nat := ds.foldl (fun n d => 10 * n + digitValue d) 0

/-- The value of a hexadecimal digit. -/
def hexValue? : Glyph → Option Nat
  | .char c =>
    if c.isDigit then some (c.toNat - '0'.toNat)
    else if 'a' ≤ c ∧ c ≤ 'f' then some (c.toNat - 'a'.toNat + 10)
    else if 'A' ≤ c ∧ c ≤ 'F' then some (c.toNat - 'A'.toNat + 10)
    else none
  | .surrogate _ => none

/-- The value of four hexadecimal digits. -/
def hexFour? (a b c d : Glyph) : Option Nat := do
  return (((← hexValue? a) * 16 + (← hexValue? b)) * 16 + (← hexValue? c)) * 16 + (← hexValue? d)

/-! ## Strings -/

/-- The character that a one-letter escape stands for. -/
def escapeValue? : Glyph → Option Char
  | .char '"' => some '"'
  | .char '\\' => some '\\'
  | .char '/' => some '/'
  | .char 'b' => some '\x08'
  | .char 'f' => some '\x0c'
  | .char 'n' => some '\n'
  | .char 'r' => some '\r'
  | .char 't' => some '\t'
  | _ => none

/-- Put a glyph in front of what is read from the rest. -/
def consGlyph (g : Glyph) : Reading Text → Reading Text
  | .ok (t, rest) => .ok (g :: t, rest)
  | .error e => .error e

/-- The code point that two surrogates are together. -/
def pair? : Glyph → Glyph → Option Glyph
  | .surrogate i, .surrogate j =>
    if i < 1024 ∧ 1024 ≤ j then some (.ofCode (0x10000 + i * 1024 + (j - 1024))) else none
  | _, _ => none

/-- Whether an escape by number stands at the front of a text. -/
def startsUnit : Text → Bool
  | .char '\\' :: .char 'u' :: _ => true
  | _ => false

/-- Put an escaped glyph in front of what is read from the rest.  The first half of a surrogate pair
joins a second half that is escaped next. -/
def consUnit (g : Glyph) (rest : Text) : Reading Text → Reading Text
  | .ok (h :: t, behind) =>
    match pair? g h with
    | some p => .ok (if startsUnit rest then p :: t else g :: h :: t, behind)
    | none => .ok (g :: h :: t, behind)
  | r => consGlyph g r

/-- Read the inside of a string and its closing quote; `start` is the text from the opening quote
on. -/
def readInside (start : Text) : Text → Reading Text
  | [] => .error (.problem .unterminatedString start)
  | .char '"' :: rest => .ok ([], rest)
  | .char '\\' :: [] => .error (.problem .unterminatedString start)
  | .char '\\' :: .char 'u' :: after =>
    match after with
    | a :: b :: c :: d :: e :: rest =>
      match hexFour? a b c d with
      | some n => consUnit (.ofCode n) (e :: rest) (readInside start (e :: rest))
      | none => .error (.problem .badUnicodeEscape (.char 'u' :: after))
    | _ => .error (.problem .badUnicodeEscape (.char 'u' :: after))
  | .char '\\' :: g :: rest =>
    match escapeValue? g with
    | some c => consGlyph (.char c) (readInside start rest)
    | none => .error (.problem .badEscape (.char '\\' :: g :: rest))
  | g :: rest =>
    if g.code < 0x20 then
      .error (.problem .controlCharacter (g :: rest))
    else
      consGlyph g (readInside start rest)

/-- Read a string from behind its opening quote. -/
def readString (t : Text) : Reading Text := readInside (.char '"' :: t) t

/-! ## Numbers -/

/-- The fraction at the front of a text: its digits, and what is left. -/
def readFraction? : Text → Option (Text × Text)
  | .char '.' :: t =>
    match t.takeWhile isDigit with
    | [] => none
    | ds => some (ds, t.dropWhile isDigit)
  | _ => none

/-- The sign at the front of an exponent: whether it is a minus, and what is left. -/
def readSign : Text → Bool × Text
  | .char '-' :: t => (true, t)
  | .char '+' :: t => (false, t)
  | t => (false, t)

/-- The exponent at the front of a text, and what is left. -/
def readExponent? : Text → Option (Int × Text)
  | g :: t =>
    if g = .char 'e' ∨ g = .char 'E' then
      let (negative, ds) := readSign t
      match ds.takeWhile isDigit with
      | [] => none
      | digits =>
        let n : Int := natOfDigits digits
        some (if negative then -n else n, ds.dropWhile isDigit)
    else
      none
  | [] => none

/-- The digits before the point: a lone zero, or a run that does not begin with zero. -/
def readWhole? : Text → Option (Text × Text)
  | .char '0' :: t => some ([.char '0'], t)
  | t =>
    match t.takeWhile isDigit with
    | [] => none
    | ds => some (ds, t.dropWhile isDigit)

/-- An integer from its digits, if they are not too many. -/
def integer (negative : Bool) (digits : Text) : Except Fault Json :=
  if digitLimit < digits.length then
    .error (.longInteger digits.length)
  else
    let n : Int := natOfDigits digits
    .ok (.int (if negative then -n else n))

/-- Read a number, its sign having been read. -/
def readUnsigned? (negative : Bool) (t : Text) : Option (Reading Json) :=
  match readWhole? t with
  | none => none
  | some (whole, rest) =>
    match readFraction? rest with
    | none =>
      match readExponent? rest with
      | none => some ((integer negative whole).map (·, rest))
      | some (e, rest) => some (.ok (.float (.ofDecimal negative (natOfDigits whole) e), rest))
    | some (fraction, rest) =>
      let (e, rest) := (readExponent? rest).getD (0, rest)
      let n := natOfDigits (whole ++ fraction)
      some (.ok (.float (.ofDecimal negative n (e - fraction.length)), rest))

/-! ## Values -/

/-- The words that stand for values. -/
def words : List (Text × Json) := [
  ("null", .null), ("true", .bool true), ("false", .bool false), ("NaN", .float .nan),
  ("Infinity", .float (.infinite false)), ("-Infinity", .float (.infinite true))]

/-- Read a word that stands for a value. -/
def readWord? (t : Text) : Option (Json × Text) :=
  words.findSome? fun (word, v) => (Text.dropPrefix? word t).map (v, ·)

/-- Read a number or a word. -/
def readAtom (t : Text) : Reading Json :=
  match readWord? t with
  | some r => .ok r
  | none =>
    let number := match t with
      | .char '-' :: rest => readUnsigned? true rest
      | _ => readUnsigned? false t
    number.getD (.error (.problem .expectedValue t))

mutual

/-- Read a value; `fuel` bounds the parts that are read one inside the other. -/
def readValue : Nat → Text → Reading Json
  | 0, t => .error (.problem .expectedValue t)
  | fuel + 1, t =>
    match t with
    | .char '"' :: rest => (readString rest).map fun (t, rest) => (.str t, rest)
    | .char '[' :: rest =>
      match skipSpace rest with
      | .char ']' :: rest => .ok (.arr [], rest)
      | rest => (readItems fuel rest).map fun (items, rest) => (.arr items, rest)
    | .char '{' :: rest =>
      match skipSpace rest with
      | .char '}' :: rest => .ok (.obj [], rest)
      | rest => (readMembers fuel rest).map fun (ms, rest) => (.obj (Members.ofList ms), rest)
    | t => readAtom t

/-- Read the items of an array that has some, and its closing bracket. -/
def readItems : Nat → Text → Reading (List Json)
  | 0, t => .error (.problem .expectedValue t)
  | fuel + 1, t =>
    match readValue fuel t with
    | .error e => .error e
    | .ok (v, rest) =>
      match skipSpace rest with
      | .char ']' :: rest => .ok ([v], rest)
      | .char ',' :: rest => (readItems fuel (skipSpace rest)).map fun (vs, rest) => (v :: vs, rest)
      | rest => .error (.problem .expectedComma rest)

/-- Read the members of an object that has some, and its closing brace. -/
def readMembers : Nat → Text → Reading Members
  | 0, t => .error (.problem .expectedPropertyName t)
  | fuel + 1, t =>
    match t with
    | .char '"' :: rest =>
      match readString rest with
      | .error e => .error e
      | .ok (k, rest) =>
        match skipSpace rest with
        | .char ':' :: rest =>
          match readValue fuel (skipSpace rest) with
          | .error e => .error e
          | .ok (v, rest) =>
            match skipSpace rest with
            | .char '}' :: rest => .ok ([(k, v)], rest)
            | .char ',' :: rest =>
              (readMembers fuel (skipSpace rest)).map fun (ms, rest) => ((k, v) :: ms, rest)
            | rest => .error (.problem .expectedComma rest)
        | rest => .error (.problem .expectedColon rest)
    | t => .error (.problem .expectedPropertyName t)

end

/-- Enough fuel for every text of a length. -/
def fuelFor (t : Text) : Nat := 2 * t.length + 2

/-- Read a whole text: one value, with blanks around it. -/
def readText (t : Text) : Except Fault Json :=
  match t with
  | .char '\uFEFF' :: _ => .error (.problem .byteOrderMark t)
  | _ =>
    match readValue (fuelFor t) (skipSpace t) with
    | .error e => .error e
    | .ok (v, rest) =>
      match skipSpace rest with
      | [] => .ok v
      | rest => .error (.problem .extraData rest)

/-- The place of a fault in the text it was found in. -/
def Fault.locate (t : Text) : Fault → ReadError
  | problem kind rest => .malformed kind (.behind (t.take (t.length - rest.length)))
  | longInteger digits => .longInteger digits

/-- Read a JSON text. -/
def read (t : Text) : Except ReadError Json := (readText t).mapError (Fault.locate t)

end RecordStore.Json
