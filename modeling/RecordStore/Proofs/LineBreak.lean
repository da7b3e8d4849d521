import RecordStore.Proofs.Markup
import RecordStore.Proofs.Replacement

/-!
# RecordStore.Proofs.LineBreak

The lines of a text, and what a form field keeps of them.  A line ends at a line feed, at a carriage return,
or at the two together (`brokenLines`); unifying the line breaks of a text keeps its lines and forgets how
they end (`unifyBreaks_eq_iff`).

The form of a text in an attribute is written in some passes, one after the other (`forAttribute_eq_passes`),
and can be read back up to the ends of its lines: `forAttribute_reversible`.
-/

namespace RecordStore.Text

variable {s t : Text}

/-! ## Lines -/

/-- The lines of a text. -/
def brokenLines : Text → List Text
  | [] => [[]]
  | .char '\r' :: .char '\n' :: t => [] :: brokenLines t
  | .char '\r' :: t => [] :: brokenLines t
  | .char '\n' :: t => [] :: brokenLines t
  | g :: t =>
    match brokenLines t with
    | [] => [[g]]
    | line :: lines => (g :: line) :: lines

theorem unifyBreaks_cons {g : Glyph} (h : g ≠ .char '\r') (t : Text) :
    unifyBreaks (g :: t) = g :: unifyBreaks t := by
  rw [unifyBreaks]
  · exact fun _ heq _ => absurd heq h
  · exact fun heq => absurd heq h

/-- Line breaks behind a text without carriage returns are unified by themselves. -/
theorem unifyBreaks_append (h : Glyph.char '\r' ∉ s) (t : Text) :
    (s ++ t).unifyBreaks = s ++ t.unifyBreaks := by
  induction s with
  | nil => rfl
  | cons g s ih =>
      rw [List.mem_cons, not_or] at h
      rw [List.cons_append, unifyBreaks_cons (Ne.symm h.1), ih h.2, List.cons_append]

/-- The lines of a text are those that line feeds end, once all line breaks are such. -/
theorem feedLines_unifyBreaks (t : Text) : feedLines t.unifyBreaks = t.brokenLines := by
  unfold feedLines
  fun_induction brokenLines t with
  | case1 => rfl
  | case2 t ih => rw [unifyBreaks, splitOn, if_pos rfl, ih]
  | case3 t hnot ih => rw [unifyBreaks.eq_2 t hnot, splitOn, if_pos rfl, ih]
  | case4 t ih => rw [unifyBreaks_cons (by decide), splitOn, if_pos rfl, ih]
  | case5 g t _ hcr hlf hnil ih => rw [unifyBreaks_cons hcr, splitOn, if_neg hlf, ih, hnil]
  | case6 g t _ hcr hlf line lines hlines ih =>
      rw [unifyBreaks_cons hcr, splitOn, if_neg hlf, ih, hlines]

/-- The pieces between separators make the text again. -/
theorem intercalate_splitOn (sep : Glyph) (t : Text) : [sep].intercalate (splitOn sep t) = t := by
  have hself : (fun g => if g = sep then [sep] else [g]) = fun g => [g] := by
    funext g
    split
    · next h => rw [h]
    · rfl
  rw [← flatMap_splitOn, hself, List.flatMap_singleton']

/-- **Line breaks.** Two texts are the same once their line breaks are unified, if they have the same
lines. -/
theorem unifyBreaks_eq_iff : s.unifyBreaks = t.unifyBreaks ↔ s.brokenLines = t.brokenLines := by
  rw [← feedLines_unifyBreaks, ← feedLines_unifyBreaks]
  constructor
  · intro h
    rw [h]
  · intro h
    rw [← intercalate_splitOn (.char '\n') s.unifyBreaks, ← intercalate_splitOn (.char '\n') t.unifyBreaks]
    exact congrArg _ h

/-! ## Attribute values -/

theorem escape_cons (g : Glyph) (t : Text) : escape (g :: t) = g.escaped ++ t.escape := List.flatMap_cons

/-- What is written for a glyph holds no line break but the glyph itself. -/
theorem eq_of_mem_escaped {g h : Glyph} (hg : g ∈ h.escaped) (hbreak : g = .char '\r' ∨ g = .char '\n') :
    h = g := by
  unfold Glyph.escaped at hg
  split at hg
  case h_6 => exact (List.mem_singleton.1 hg).symm
  all_goals
    rcases hbreak with rfl | rfl <;> exact absurd hg (by decide)

theorem escaped_ne_nil (g : Glyph) : g.escaped ≠ [] := by
  unfold Glyph.escaped
  split <;> exact List.cons_ne_nil _ _

/-- An escaped text begins with a line feed only if the text does. -/
theorem eq_cons_of_escape_eq_cons {t rest : Text} (h : t.escape = .char '\n' :: rest) :
    ∃ rest, t = .char '\n' :: rest := by
  cases t with
  | nil => cases h
  | cons g t =>
      obtain ⟨a, form, hform⟩ := List.exists_cons_of_ne_nil (escaped_ne_nil g)
      rw [escape_cons, hform, List.cons_append] at h
      obtain rfl : a = .char '\n' := (List.cons.inj h).1
      have hg : g = .char '\n' := eq_of_mem_escaped (by rw [hform]; exact List.mem_cons_self) (.inr rfl)
      exact ⟨t, by rw [hg]⟩

/-- Line breaks may be unified before a text is escaped, or behind. -/
theorem unifyBreaks_escape (t : Text) : t.escape.unifyBreaks = t.unifyBreaks.escape := by
  fun_induction unifyBreaks t with
  | case1 t ih =>
      rw [escape_cons (.char '\n'), ← ih]
      rfl
  | case2 t hnot ih =>
      have hlone : ∀ rest, escape t = .char '\n' :: rest → False := by
        intro rest h
        obtain ⟨rest', ht⟩ := eq_cons_of_escape_eq_cons h
        exact hnot rest' ht
      rw [escape_cons (.char '\n'), ← ih]
      exact unifyBreaks.eq_2 _ hlone
  | case3 g t _ hcr ih =>
      have hnot : Glyph.char '\r' ∉ g.escaped := fun h => hcr (eq_of_mem_escaped h (.inl rfl))
      rw [escape_cons, escape_cons, unifyBreaks_append hnot, ih]
  | case4 => rfl

/-- **Attribute values** are written pass by pass: the text is escaped, its line breaks are unified, and
they become references. -/
theorem forAttribute_eq_passes (t : Text) :
    t.forAttribute = replaceAll [.char '\n'] "&#10;" (unifyPasses (escapePasses t)) := by
  have hform : ∀ g : Glyph, replaceAll [.char '\n'] "&#10;" g.escaped = attributeForm g := by
    intro g
    unfold attributeForm
    split
    · exact (replaceAll_append_self (List.cons_ne_nil _ []) _ []).trans (by rw [replaceAll_nil]; rfl)
    · next hlf => exact replaceAll_of_not_mem (fun h => hlf (eq_of_mem_escaped h (.inr rfl))) _
  rw [← escape_eq_passes, ← unifyBreaks_eq_passes, unifyBreaks_escape, escape, replaceAll_flatMap]
  simp only [hform]
  rfl

/-- No line break is left in the form of a text in an attribute. -/
theorem not_break_of_mem_forAttribute {g : Glyph} (h : g ∈ t.forAttribute) :
    g ≠ .char '\r' ∧ g ≠ .char '\n' := by
  obtain ⟨h', hmem, hg⟩ := List.mem_flatMap.1 h
  unfold attributeForm at hg
  split at hg
  · have hreference : ∀ g ∈ ofString "&#10;", g ≠ .char '\r' ∧ g ≠ .char '\n' := by decide
    exact hreference g hg
  · next hlf =>
    constructor
    · rintro rfl
      exact cr_not_mem_unifyBreaks t (eq_of_mem_escaped hg (.inl rfl) ▸ hmem)
    · rintro rfl
      exact hlf (eq_of_mem_escaped hg (.inr rfl))

/-- **The encoding of a form field is reversible.** In the form of a text in an attribute there is no line
break, no angle bracket and no quote.  Read back, it is the text in which each pair of carriage return and
line feed, and each carriage return that is left, has become a line feed; so two texts have the same form
exactly if they have the same lines. -/
theorem forAttribute_reversible (s t : Text) :
    (∀ g ∈ t.forAttribute, g.Inert ∧ g ≠ .char '\r' ∧ g ≠ .char '\n')
      ∧ decodeReferences t.forAttribute = replaceAll "\r" "\n" (replaceAll "\r\n" "\n" t)
      ∧ (s.forAttribute = t.forAttribute ↔ s.brokenLines = t.brokenLines) := by
  have hread : ∀ t : Text, decodeReferences t.forAttribute = t.unifyBreaks :=
    fun t => (shows_forAttribute t).2
  refine ⟨fun g hg => ⟨(shows_forAttribute t).1 g hg, not_break_of_mem_forAttribute hg⟩, ?_, ?_⟩
  · rw [hread, unifyBreaks_eq_passes]
    rfl
  · rw [← unifyBreaks_eq_iff]
    constructor
    · intro h
      rw [← hread s, h, hread]
    · intro h
      rw [forAttribute, h, forAttribute]

end RecordStore.Text
