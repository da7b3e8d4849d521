import RecordStore.Json
import RecordStore.Binary64.Shortest

/-!
# RecordStore.Json.Writer

Writing JSON text.  Every item and every member stands on a line of its own, two blanks deeper than
what holds it:

    {
      "ident": "a",
      "tags": [
        1
      ]
    }

Records are written in sorted key order (`Json.sortKeys`), so that values that are equal up to the
order of members have one text.  A text may be limited to ASCII characters, the others being
escaped.
-/

namespace RecordStore.Json

/-! ## Order of members -/

/-- Members in the order of their keys. -/
def sortByKey (ms : Members) : Members := ms.mergeSort fun a b => Text.ble a.1 b.1

mutual

/-- The same value with the members of all objects in the order of their keys. -/
def sortKeys : Json → Json
  | arr items => arr (sortKeysItems items)
  | obj members => obj (sortByKey (sortKeysMembers members))
  | v => v

/-- The items of an array, each with sorted keys. -/
def sortKeysItems : List Json → List Json
  | [] => []
  | v :: vs => sortKeys v :: sortKeysItems vs

/-- The members of an object, in their old order, each value with sorted keys. -/
def sortKeysMembers : List (Text × Json) → List (Text × Json)
  | [] => []
  | (k, v) :: ms => (k, sortKeys v) :: sortKeysMembers ms

end

/-! ## Strings -/

/-- Which characters a text is limited to. -/
inductive Repertoire where
  | unicode
  | ascii
deriving DecidableEq

/-- One hexadecimal digit. -/
def hexChar (n : Nat) : Glyph := .char (Nat.digitChar (n % 16))

/-- A number of up to 16 bits as an escape. -/
def unicodeEscape (n : Nat) : Text :=
  [.char '\\', .char 'u', hexChar (n / 4096), hexChar (n / 256), hexChar (n / 16), hexChar n]

/-- One glyph inside a JSON string. -/
def writeGlyph (repertoire : Repertoire) (g : Glyph) : Text :=
  match g with
  | .char '"' => [.char '\\', .char '"']
  | .char '\\' => [.char '\\', .char '\\']
  | .char '\n' => [.char '\\', .char 'n']
  | .char '\r' => [.char '\\', .char 'r']
  | .char '\t' => [.char '\\', .char 't']
  | .char '\x08' => [.char '\\', .char 'b']
  | .char '\x0c' => [.char '\\', .char 'f']
  | g =>
    let n := g.code
    if n < 0x20 then unicodeEscape n
    else if repertoire = .unicode ∨ n < 0x7F then [g]
    else if n < 0x10000 then unicodeEscape n
    else
      unicodeEscape (0xD800 + (n - 0x10000) / 1024) ++ unicodeEscape (0xDC00 + (n - 0x10000) % 1024)

/-- A JSON string. -/
def writeString (repertoire : Repertoire) (t : Text) : Text :=
  [.char '"'] ++ t.flatMap (writeGlyph repertoire) ++ [.char '"']

/-! ## Values -/

/-- Numbers without digits, as JSON texts spell them. -/
def numberSpelling : Binary64.Spelling := ⟨"NaN", "Infinity"⟩

/-- A new line at a depth. -/
def newLine (depth : Nat) : Text := .char '\n' :: List.replicate (2 * depth) (.char ' ')

/-- Parts on lines of their own between two brackets. -/
def block (depth : Nat) (first last : Char) (parts : List Text) : Text :=
  match parts with
  | [] => [.char first, .char last]
  | parts =>
    [.char first] ++ newLine (depth + 1) ++ (.char ',' :: newLine (depth + 1)).intercalate parts
      ++ newLine depth ++ [.char last]

mutual

/-- Write a value that stands at a depth. -/
def writeAt (repertoire : Repertoire) (depth : Nat) : Json → Text
  | null => "null"
  | bool b => if b then "true" else "false"
  | int n => Text.ofInt n
  | float x => Text.ofChars (x.text numberSpelling)
  | str t => writeString repertoire t
  | arr items => block depth '[' ']' (writeItems repertoire (depth + 1) items)
  | obj members => block depth '{' '}' (writeMembers repertoire (depth + 1) members)

/-- Write the items of an array, each on its own. -/
def writeItems (repertoire : Repertoire) (depth : Nat) : List Json → List Text
  | [] => []
  | v :: vs => writeAt repertoire depth v :: writeItems repertoire depth vs

/-- Write the members of an object, each on its own. -/
def writeMembers (repertoire : Repertoire) (depth : Nat) : List (Text × Json) → List Text
  | [] => []
  | (k, v) :: ms =>
    (writeString repertoire k ++ [.char ':', .char ' '] ++ writeAt repertoire depth v)
      :: writeMembers repertoire depth ms

end

/-- Write a value as a text of its own. -/
def write (repertoire : Repertoire) (v : Json) : Text := writeAt repertoire 0 v

/-! ## Integers that are too long -/

mutual

/-- Every integer of the value has at most so many digits. -/
def digitsWithin (limit : Nat) : Json → Bool
  | int n => (Nat.toDigits 10 n.natAbs).length ≤ limit
  | arr items => digitsWithinItems limit items
  | obj members => digitsWithinMembers limit members
  | _ => true

/-- Every integer of the items has at most so many digits. -/
def digitsWithinItems (limit : Nat) : List Json → Bool
  | [] => true
  | v :: vs => digitsWithin limit v && digitsWithinItems limit vs

/-- Every integer of the members has at most so many digits. -/
def digitsWithinMembers (limit : Nat) : List (Text × Json) → Bool
  | [] => true
  | (_, v) :: ms => digitsWithin limit v && digitsWithinMembers limit ms

end

end RecordStore.Json
