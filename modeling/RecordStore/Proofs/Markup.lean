import RecordStore.Text.Escape
import RecordStore.Text.Markup

/-!
# RecordStore.Proofs.Markup

What markup for free text looks like: paragraphs in `<p>` tags, one behind the other, and in a paragraph
lines with `<br>` tags between them.  In the lines nothing can open or close a tag or end an attribute
(`tagged_markup`), so these tags are all that the markup has.
-/

namespace RecordStore.Text

section Lines

variable {sep g : Glyph} {t piece : Text}

theorem splitOn_ne_nil [DecidableEq α] (sep : α) (t : List α) : splitOn sep t ≠ [] := by
  induction t with
  | nil => simp [splitOn]
  | cons g t ih =>
      rw [splitOn]
      split
      · simp
      · split <;> simp

/-- The pieces of a text have no other glyphs than the text. -/
theorem mem_of_mem_splitOn (hp : piece ∈ splitOn sep t) (hg : g ∈ piece) : g ∈ t := by
  induction t generalizing piece with
  | nil =>
      obtain rfl := List.mem_singleton.1 hp
      cases hg
  | cons h t ih =>
      rw [splitOn] at hp
      split at hp
      · rcases List.mem_cons.1 hp with rfl | hp
        · cases hg
        · exact List.mem_cons_of_mem _ (ih hp hg)
      · cases hs : splitOn sep t with
        | nil => exact absurd hs (splitOn_ne_nil sep t)
        | cons first pieces =>
            rw [hs] at hp ih
            rcases List.mem_cons.1 hp with rfl | hp
            · rcases List.mem_cons.1 hg with rfl | hg
              · exact List.mem_cons_self
              · exact List.mem_cons_of_mem _ (ih List.mem_cons_self hg)
            · exact List.mem_cons_of_mem _ (ih (List.mem_cons_of_mem _ hp) hg)

/-- Putting a text in the place of each separator puts it between the pieces. -/
theorem flatMap_splitOn (between : Text) (t : Text) :
    t.flatMap (fun g => if g = sep then between else [g]) = between.intercalate (splitOn sep t) := by
  induction t with
  | nil => rfl
  | cons g t ih =>
      rw [List.flatMap_cons, ih, splitOn]
      obtain ⟨first, pieces, hs⟩ := List.exists_cons_of_ne_nil (splitOn_ne_nil sep t)
      split
      · rw [hs, List.intercalate_cons_cons, List.nil_append]
      · cases pieces with
        | nil => simp [hs, List.intercalate]
        | cons second pieces => simp [hs, List.intercalate_cons_cons]

end Lines

/-- Lines in the tags of a paragraph. -/
def tagged (lines : List Text) : Text := "<p>" ++ List.intercalate "<br>\n" lines ++ "</p>"

/-- A text is markup whose only tags are those of paragraphs and of the breaks between their lines. -/
def IsMarkup (t : Text) : Prop :=
  ∃ paragraphs : List (List Text), t = [Glyph.char '\n'].intercalate (paragraphs.map tagged) ∧
    ∀ lines ∈ paragraphs, ∀ line ∈ lines, ∀ g ∈ line, g.Inert

/-- A paragraph is written as its escaped lines in tags. -/
theorem paragraph_eq (block : List Text) :
    paragraph block = tagged (splitOn (.char '\n') (escape (strip ([.char '\n'].intercalate block)))) := by
  rw [paragraph, tagged, flatMap_splitOn]

/-- The markup of a text has no other tags than those of its paragraphs and line breaks. -/
theorem isMarkup_markup (t : Text) : IsMarkup (markup t) := by
  refine ⟨(groupLines (feedLines (unifyBreaks t))).map fun block =>
    splitOn (.char '\n') (escape (strip ([.char '\n'].intercalate block))), ?_, ?_⟩
  · rw [markup, List.map_map]
    exact congrArg _ (List.map_congr_left fun block _ => paragraph_eq block)
  · intro lines hlines line hline g hg
    obtain ⟨block, -, rfl⟩ := List.mem_map.1 hlines
    exact escape_inert (mem_of_mem_splitOn hline hg)

end RecordStore.Text
