/-!
# RecordStore.Text

Texts as lists of code points.  A JSON text can name half of a surrogate pair on its own, so a
text is a list of `Glyph`s rather than a `String`: a glyph is a Unicode scalar value or such a lone
half.  `Text.ofString` embeds strings, `Text.toString?` reads them back, and the two agree
(`toString?_ofString`).

Texts are ordered by code point (`Text.ble`), which is the order that record keys are written in.
This module depends only on the Lean 4 core library.
-/

namespace RecordStore

/-! ## Glyphs -/

/-- A code point: a Unicode scalar value, or one of the 2048 surrogates standing alone. -/
inductive Glyph where
  | char (c : Char)
  | surrogate (i : Fin 2048)
deriving DecidableEq, Inhabited

namespace Glyph

/-- The number of a code point. -/
def code : Glyph → Nat
  | char c => c.toNat
  | surrogate i => 0xD800 + i

/-- The code point with a given number; numbers past the last code point give U+FFFD. -/
def ofCode (n : Nat) : Glyph :=
  if h : 0xD800 ≤ n ∧ n < 0xE000 then
    surrogate ⟨n - 0xD800, by omega⟩
  else if h : n.isValidChar then
    char (Char.ofNatAux n h)
  else
    char '\uFFFD'

/-- The character of a glyph that is one. -/
def toChar? : Glyph → Option Char
  | char c => some c
  | surrogate _ => none

@[simp]
theorem toChar?_char (c : Char) : (char c).toChar? = some c := rfl

end Glyph

/-! ## Texts -/

/-- A text is a list of code points. -/
abbrev Text := List Glyph

namespace Text

/-- The text of a list of characters. -/
def ofChars (cs : List Char) : Text := cs.map Glyph.char

/-- The text of a string. -/
def ofString (s : String) : Text := ofChars s.toList

instance : Coe String Text := ⟨ofString⟩

/-- The characters of a text that has no lone surrogate. -/
def toChars? : Text → Option (List Char)
  | [] => some []
  | .char c :: t => (toChars? t).map (c :: ·)
  | .surrogate _ :: _ => none

/-- The string of a text that has no lone surrogate. -/
def toString? (t : Text) : Option String := t.toChars?.map String.ofList

/-- A text is plain when it holds no lone surrogate. -/
def Plain (t : Text) : Prop := ∃ cs, t = ofChars cs

theorem plain_ofString (s : String) : (ofString s).Plain := ⟨_, rfl⟩

theorem toChars?_ofChars (cs : List Char) : toChars? (ofChars cs) = some cs := by
  induction cs with
  | nil => rfl
  | cons c cs ih =>
    have : ofChars (c :: cs) = .char c :: ofChars cs := rfl
    rw [this, toChars?, ih]; rfl

theorem eq_ofChars_of_toChars? {t : Text} {cs : List Char} (h : t.toChars? = some cs) :
    t = ofChars cs := by
  induction t generalizing cs with
  | nil => cases h; rfl
  | cons g t ih =>
    cases g with
    | surrogate i => cases h
    | char c =>
      obtain ⟨ds, hd, rfl⟩ := Option.map_eq_some_iff.1 h
      rw [ih hd]; rfl

/-- Reading back the text of a string gives the string. -/
theorem toString?_ofString (s : String) : toString? (ofString s) = some s := by
  simp [toString?, ofString, toChars?_ofChars]

/-- A text is plain exactly when it can be read as characters. -/
theorem plain_iff_toChars? {t : Text} : t.Plain ↔ ∃ cs, t.toChars? = some cs :=
  ⟨fun ⟨cs, h⟩ => ⟨cs, h ▸ toChars?_ofChars cs⟩, fun ⟨cs, h⟩ => ⟨cs, eq_ofChars_of_toChars? h⟩⟩

/-- The text as a string, lone surrogates being replaced by U+FFFD. -/
def toString (t : Text) : String := String.ofList (t.map fun g => g.toChar?.getD '\uFFFD')

/-- The decimal digits of a natural number. -/
def ofNat (n : Nat) : Text := ofChars (Nat.toDigits 10 n)

/-- The decimal digits of an integer, a minus sign before those of a negative one. -/
def ofInt (n : Int) : Text := (if n < 0 then [Glyph.char '-'] else []) ++ ofNat n.natAbs

/-- Texts one after the other, with a text between each two. -/
def join (between : Text) (ts : List Text) : Text := List.intercalate between ts

/-! ## Order -/

/-- Order by code points, position by position; a text comes after its proper beginnings. -/
def compare : Text → Text → Ordering
  | [], [] => .eq
  | [], _ :: _ => .lt
  | _ :: _, [] => .gt
  | a :: s, b :: t =>
    if a.code < b.code then .lt else if b.code < a.code then .gt else compare s t

/-- At or before another text in the order of code points. -/
def ble (s t : Text) : Bool := (compare s t).isLE

/-! ## Cutting -/

/-- What is left of a text behind a given beginning. -/
def dropPrefix? [DecidableEq α] : List α → List α → Option (List α)
  | [], t => some t
  | _ :: _, [] => none
  | p :: ps, g :: t => if p = g then dropPrefix? ps t else none

theorem dropPrefix?_eq_some_iff [DecidableEq α] {p t r : List α} :
    dropPrefix? p t = some r ↔ t = p ++ r := by
  induction p generalizing t with
  | nil => simp [dropPrefix?, eq_comm]
  | cons a p ih =>
    cases t with
    | nil => simp [dropPrefix?]
    | cons g t =>
      by_cases h : a = g
      · simp [dropPrefix?, h, ih]
      · simp [dropPrefix?, h, Ne.symm h]

/-- Cut a text at the first occurrence of a mark: what stands before it and what stands behind. -/
def cutAt? [DecidableEq α] (mark : List α) : List α → Option (List α × List α)
  | [] => if mark = [] then some ([], []) else none
  | g :: t =>
    match dropPrefix? mark (g :: t) with
    | some rest => some ([], rest)
    | none => (cutAt? mark t).map fun (before, rest) => (g :: before, rest)

/-- The pieces of a text between the glyphs of one kind, which are dropped. -/
def splitOn [DecidableEq α] (sep : α) : List α → List (List α)
  | [] => [[]]
  | g :: t =>
    if g = sep then
      [] :: splitOn sep t
    else
      match splitOn sep t with
      | [] => [[g]]
      | piece :: pieces => (g :: piece) :: pieces


end Text

end RecordStore
