import RecordStore.Text.Escape

/-!
# RecordStore.Text.LineBreak

Line breaks.  A line ends at a line feed, at a carriage return, or at the two together;
`Text.unifyBreaks` writes each of them as one line feed.  `Text.forAttribute` puts a text into an
attribute value: it escapes markup and writes each line break as the reference `&#10;`.
-/

namespace RecordStore.Text

/-- Write every line break as one line feed. -/
def unifyBreaks : Text → Text
  | .char '\r' :: .char '\n' :: t => .char '\n' :: unifyBreaks t
  | .char '\r' :: t => .char '\n' :: unifyBreaks t
  | g :: t => g :: unifyBreaks t
  | [] => []

/-- The written form of one glyph in an attribute value: a line feed is the reference `&#10;`. -/
def attributeForm : Glyph → Text
  | .char '\n' => "&#10;"
  | g => g.escaped

/-- The text as a form field carries it in an attribute. -/
def forAttribute (t : Text) : Text := (unifyBreaks t).flatMap attributeForm

/-- No carriage return is left once the line breaks are unified. -/
theorem cr_not_mem_unifyBreaks (t : Text) : Glyph.char '\r' ∉ unifyBreaks t := by
  fun_induction unifyBreaks t with
  | case1 t ih => simpa using ih
  | case2 t _ ih => simpa using ih
  | case3 g t _ h ih =>
    refine fun m => ?_
    rcases List.mem_cons.1 m with h' | h'
    · exact h h'.symm
    · exact ih h'
  | case4 => simp

/-- A text without carriage returns has its line breaks unified already. -/
theorem unifyBreaks_eq_self {t : Text} (h : Glyph.char '\r' ∉ t) : unifyBreaks t = t := by
  fun_induction unifyBreaks t with
  | case1 t ih => simp at h
  | case2 t _ ih => simp at h
  | case3 g t _ _ ih => rw [ih fun m => h (List.mem_cons_of_mem _ m)]
  | case4 => rfl

/-! ## Lines of a report -/

/-- Glyphs that end a line of plain text on their own. -/
def endsLine (g : Glyph) : Bool :=
  [0x0A, 0x0B, 0x0C, 0x0D, 0x1C, 0x1D, 0x1E, 0x85, 0x2028, 0x2029].contains g.code

/-- Auxiliary to `lines`: the lines of a text, the glyphs of the open line being at hand in reverse
order. -/
def linesFrom (acc : Text) : Text → List Text
  | [] => if acc = [] then [] else [acc.reverse]
  | .char '\r' :: .char '\n' :: t => acc.reverse :: linesFrom [] t
  | g :: t => if endsLine g then acc.reverse :: linesFrom [] t else linesFrom (g :: acc) t

/-- The lines of a plain text, without what ends them; a last line may lack its end. -/
def lines (t : Text) : List Text := linesFrom [] t

end RecordStore.Text
