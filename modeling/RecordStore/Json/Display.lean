import RecordStore.Json
import RecordStore.Text.Printable
import RecordStore.Binary64.Shortest

/-!
# RecordStore.Json.Display

Values as they are shown inside messages.  A text is quoted: in single quotes, or in double quotes
when it holds a single quote and no double one; what is not printable is written by its number.

    'a'   "it's"   '\n\xa0\u200b'   [1, 'b', None]   {'k': 2.5}
-/

namespace RecordStore

/-- A number in hexadecimal with at least `width` digits. -/
def hexDigits (width n : Nat) : List Char :=
  let ds := Nat.toDigits 16 n
  List.replicate (width - ds.length) '0' ++ ds

/-- One glyph inside quotes. -/
def Glyph.quoted (quote : Char) (g : Glyph) : List Char :=
  match g with
  | .surrogate _ => ['\\', 'u'] ++ hexDigits 4 g.code
  | .char c =>
    if c = quote ∨ c = '\\' then ['\\', c]
    else if c = '\n' then ['\\', 'n']
    else if c = '\r' then ['\\', 'r']
    else if c = '\t' then ['\\', 't']
    else if g.isPrintable then [c]
    else if g.code < 0x100 then ['\\', 'x'] ++ hexDigits 2 g.code
    else if g.code < 0x10000 then ['\\', 'u'] ++ hexDigits 4 g.code
    else ['\\', 'U'] ++ hexDigits 8 g.code

/-- A text in quotes. -/
def Text.quoted (t : Text) : Text :=
  let quote := if t.contains (.char '\'') && !t.contains (.char '"') then '"' else '\''
  ofChars ([quote] ++ t.flatMap (Glyph.quoted quote) ++ [quote])

/-- A list as messages show it, its items being shown already. -/
def Text.bracketed (items : List Text) : Text := "[" ++ join ", " items ++ "]"

/-- A list of texts as messages show it. -/
def Text.quotedList (items : List Text) : Text := bracketed (items.map quoted)

namespace Json

/-- Numbers without digits, as messages spell them. -/
def displaySpelling : Binary64.Spelling := ⟨"nan", "inf"⟩

mutual

/-- A value as messages show it. -/
def display : Json → Text
  | null => "None"
  | bool b => if b then "True" else "False"
  | int n => Text.ofInt n
  | float x => Text.ofChars (x.text displaySpelling)
  | str t => t.quoted
  | arr items => Text.bracketed (displayItems items)
  | obj members => "\x7b" ++ Text.join ", " (displayMembers members) ++ "\x7d"

/-- The items of an array as messages show them. -/
def displayItems : List Json → List Text
  | [] => []
  | x :: xs => display x :: displayItems xs

/-- The members of an object as messages show them. -/
def displayMembers : List (Text × Json) → List Text
  | [] => []
  | (k, v) :: ms => (k.quoted ++ ": " ++ display v) :: displayMembers ms

end

/-- A value put into a running text: a string stands there as it is. -/
def shown : Json → Text
  | str t => t
  | v => v.display

end Json

end RecordStore
