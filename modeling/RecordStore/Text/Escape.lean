import RecordStore.Text

/-!
# RecordStore.Text.Escape

Escaping for markup: the five characters that markup gives a meaning become character references,
and every other glyph stays as it is.

    &  &amp;    <  &lt;    >  &gt;    "  &quot;    '  &#x27;

An escaped text holds no angle bracket and no quote (`escape_inert`), so it can stand between tags
and inside a quoted attribute.
-/

namespace RecordStore

/-- The written form of one glyph in markup. -/
def Glyph.escaped : Glyph → Text
  | .char '&' => "&amp;"
  | .char '<' => "&lt;"
  | .char '>' => "&gt;"
  | .char '"' => "&quot;"
  | .char '\'' => "&#x27;"
  | g => [g]

/-- A glyph that cannot open or close a tag or end an attribute. -/
def Glyph.Inert (g : Glyph) : Prop :=
  g ≠ .char '<' ∧ g ≠ .char '>' ∧ g ≠ .char '"' ∧ g ≠ .char '\''

instance : DecidablePred Glyph.Inert := fun g => by
  unfold Glyph.Inert
  infer_instance

namespace Text

/-- A text as markup shows it. -/
def escape (t : Text) : Text := t.flatMap Glyph.escaped

@[simp]
theorem escape_append (s t : Text) : escape (s ++ t) = escape s ++ escape t := by
  simp [escape]

theorem inert_of_mem_escaped {g h : Glyph} (m : h ∈ g.escaped) : h.Inert := by
  unfold Glyph.escaped at m
  split at m
  case h_6 =>
    obtain rfl := List.mem_singleton.1 m
    unfold Glyph.Inert
    grind
  all_goals
    revert h
    decide

/-- No glyph of an escaped text can open or close a tag or end an attribute. -/
theorem escape_inert {t : Text} {g : Glyph} (m : g ∈ escape t) : g.Inert := by
  obtain ⟨h, _, hm⟩ := List.mem_flatMap.1 m
  exact inert_of_mem_escaped hm

end Text

end RecordStore
