import RecordStore.Text

/-!
# RecordStore.Text.Blank

Blanks: the Unicode white space characters together with the four information separators.  They are
what stripping removes, and a text of blanks alone counts as empty.  Every character that Lean calls
white space is a blank (`isBlank_of_isWhitespace`).
-/

namespace RecordStore

/-- The blank code points. -/
def blankRanges : List (Nat × Nat) := [
  (0x9, 0xD), (0x1C, 0x20), (0x85, 0x85), (0xA0, 0xA0), (0x1680, 0x1680), (0x2000, 0x200A),
  (0x2028, 0x2029), (0x202F, 0x202F), (0x205F, 0x205F), (0x3000, 0x3000)]

/-- A blank glyph: white space in the sense of Unicode, or an information separator. -/
def Glyph.isBlank (g : Glyph) : Bool :=
  blankRanges.any fun (first, last) => first ≤ g.code && g.code ≤ last

theorem isBlank_of_isWhitespace {c : Char} (h : c.isWhitespace) : (Glyph.char c).isBlank := by
  simp only [Char.isWhitespace, Bool.or_eq_true, decide_eq_true_eq] at h
  rcases h with ((rfl | rfl) | rfl) | rfl <;> decide

namespace Text

/-- A text without blanks at its ends. -/
def strip (t : Text) : Text :=
  ((t.dropWhile Glyph.isBlank).reverse.dropWhile Glyph.isBlank).reverse

/-- A text of blanks alone, such as the empty one. -/
def isBlank (t : Text) : Bool := t.all Glyph.isBlank

end Text

end RecordStore
