import Mathlib.Data.Option.Basic
import RecordStore.Template

/-!
# RecordStore.Proofs.Template.Scan

What a scan over a template finds.  A text that a search `Skips` has no place at which something is
found, whatever stands behind the text; a scan goes over it and leaves it as it is (`scan_append`).
A tag does not occur in the tags of other forms, because they differ from it at the first glyph
behind the opening braces or behind the sign of the tag (`skips_opening`).

* `block?_print`: a block is found where it is printed, if its closing tag is not in its body.
* `substitution?_raw`, `substitution?_value`: so is a value.
-/

namespace RecordStore.Template

/-! ## Skipping -/

section Skips

variable {β γ : Type} {find? : Text → Option β} {find?' : Text → Option γ} {s t : Text}

/-- At no place of a text something is found, whatever stands behind the text. -/
def Skips (find? : Text → Option β) : Text → Prop
  | [] => True
  | g :: t => (∀ rest, find? (g :: t ++ rest) = none) ∧ Skips find? t

theorem Skips.append (hs : Skips find? s) (ht : Skips find? t) : Skips find? (s ++ t) := by
  induction s with
  | nil => exact ht
  | cons g s ih =>
      refine ⟨fun rest => ?_, ih hs.2⟩
      have hnone := hs.1 (t ++ rest)
      rwa [← List.append_assoc] at hnone

/-- What fails where another search fails is skipped where that one is. -/
theorem Skips.imp (h : ∀ t, find? t = none → find?' t = none) (hs : Skips find? s) :
    Skips find?' s := by
  induction s with
  | nil => trivial
  | cons g s ih => exact ⟨fun rest => h _ (hs.1 rest), ih hs.2⟩

/-- What begins with one glyph is skipped where this glyph does not stand. -/
theorem skips_of_not_mem (first : Glyph) (h : ∀ t, t.head? ≠ some first → find? t = none)
    (hs : first ∉ s) : Skips find? s := by
  induction s with
  | nil => trivial
  | cons g s ih =>
      rw [List.mem_cons, not_or] at hs
      exact ⟨fun rest => h _ fun heq => hs.1 (Option.some.inj heq).symm, ih hs.2⟩

theorem dropPrefix?_eq_none {α : Type} [DecidableEq α] {a : α} {p t : List α} (h : t.head? ≠ some a) :
    Text.dropPrefix? (a :: p) t = none := by
  cases t with
  | nil => rfl
  | cons b t =>
      have hne : a ≠ b := fun heq => h (congrArg some heq.symm)
      rw [Text.dropPrefix?, if_neg hne]

theorem dropPrefix?_append {α : Type} [DecidableEq α] (p t : List α) :
    Text.dropPrefix? p (p ++ t) = some t :=
  Text.dropPrefix?_eq_some_iff.2 rfl

/-- A tag is not found in another one that differs from it behind the opening braces. -/
theorem skips_opening (tag : Text) {g : Glyph} (hg : g ≠ .char '{') (hs : .char '{' ∉ s)
    (h : ∀ rest, Text.dropPrefix? tag (g :: s ++ rest) = none) :
    Skips (Text.dropPrefix? (opening ++ tag)) (opening ++ g :: s) := by
  refine ⟨fun rest => h rest, fun rest => ?_, skips_of_not_mem (.char '{') ?_ ?_⟩
  · exact if_neg (Ne.symm hg)
  · intro t ht
    exact dropPrefix?_eq_none ht
  · exact List.not_mem_cons_of_ne_of_not_mem (Ne.symm hg) hs

end Skips

/-! ## Scanning -/

section Scan

variable {α : Type} {find? : Text → Option (α × Text)} {s t rest : Text} {a : α}

/-- A scan leaves what is skipped. -/
theorem scan_append (hs : Skips find? s) (rest : Text) :
    scan find? (s ++ rest) = s.map .inl ++ scan find? rest := by
  induction s with
  | nil => rfl
  | cons g s ih =>
      have hnone := hs.1 rest
      rw [List.cons_append] at hnone
      rw [List.cons_append, scan.eq_def]
      simp only [hnone, ih hs.2, List.map_cons, List.cons_append]

/-- A scan finds what stands at the front, and goes on behind it. -/
theorem scan_found (h : find? t = some (a, rest)) (hlt : rest.length < t.length) :
    scan find? t = .inr a :: scan find? rest := by
  cases t with
  | nil => cases hlt
  | cons g t =>
      rw [scan.eq_def]
      simp only [h, hlt, dif_pos]

/-- A text is cut at the first place where a mark stands. -/
theorem cutAt?_append {mark : Text} (hne : mark ≠ []) (hs : Skips (Text.dropPrefix? mark) s)
    (rest : Text) : Text.cutAt? mark (s ++ (mark ++ rest)) = some (s, rest) := by
  induction s with
  | nil =>
      cases mark with
      | nil => exact absurd rfl hne
      | cons g mark =>
          have hdrop := dropPrefix?_append (g :: mark) rest
          rw [List.cons_append] at hdrop
          rw [List.nil_append, List.cons_append, Text.cutAt?.eq_def]
          simp only [hdrop]
  | cons g s ih =>
      have hnone := hs.1 (mark ++ rest)
      rw [List.cons_append] at hnone
      rw [List.cons_append, Text.cutAt?.eq_def]
      simp only [hnone, ih hs.2, Option.map_some]

end Scan

/-! ## Glyphs of paths -/

/-- No range of blanks has a code point in common with a range of word characters. -/
theorem blankRanges_disjoint : ∀ r ∈ blankRanges, ∀ w ∈ wordRanges, r.2 < w.1 ∨ w.2 < r.1 := by
  decide +kernel

theorem isBlank_of_isPathGlyph {g : Glyph} (h : isPathGlyph g = true) : g.isBlank = false := by
  rw [isPathGlyph, Bool.or_eq_true] at h
  rcases h with h | h
  · rw [Bool.eq_false_iff]
    intro hblank
    obtain ⟨r, hr, hin⟩ := List.any_eq_true.1 hblank
    obtain ⟨w, hw, hin'⟩ := List.any_eq_true.1 h
    simp only [Bool.and_eq_true, decide_eq_true_eq] at hin hin'
    have hdisjoint := blankRanges_disjoint r hr w hw
    omega
  · rw [of_decide_eq_true h]
    decide

theorem ne_of_isPathGlyph {g : Glyph} (h : isPathGlyph g = true) : g ≠ .char '{' ∧ g ≠ .char '}' := by
  have hopen : isPathGlyph (.char '{') = false := by decide +kernel
  have hclose : isPathGlyph (.char '}') = false := by decide +kernel
  constructor
  · rintro rfl
    cases hopen.symm.trans h
  · rintro rfl
    cases hclose.symm.trans h

theorem ne_of_isNameStart {g : Glyph} (h : isNameStart g = true) :
    g ≠ .char '{' ∧ g ≠ .char '#' ∧ g ≠ .char '/' ∧ g ≠ .char '@' := by
  refine ⟨?_, ?_, ?_, ?_⟩ <;> (rintro rfl; revert h; decide)

/-- The path of a block: path glyphs, at least one. -/
def isPath (path : Text) : Bool := !path.isEmpty && path.all isPathGlyph

/-- The path of a value: it begins as a name does. -/
def isName : Text → Bool
  | [] => false
  | g :: t => isNameStart g && t.all isPathGlyph

theorem takeWhile_append_stop {α : Type} {p : α → Bool} {s t : List α} (hs : ∀ a ∈ s, p a = true)
    (ht : ∀ a ∈ t.head?, p a = false) : (s ++ t).takeWhile p = s ∧ (s ++ t).dropWhile p = t := by
  rw [List.takeWhile_append_of_pos hs, List.dropWhile_append_of_pos hs]
  cases t with
  | nil => simp
  | cons a t => simp [ht a rfl]

/-! ## Finding what is printed -/

section Printed

variable {path body : Text}

theorem isPathGlyph_of_isPath (h : isPath path = true) :
    path ≠ [] ∧ ∀ g ∈ path, isPathGlyph g = true := by
  simpa [isPath] using h

/-- The end of a tag ends the path in it. -/
theorem path_append_closing (h : ∀ g ∈ path, isPathGlyph g = true) (rest : Text) :
    (path ++ (closing ++ rest)).takeWhile isPathGlyph = path
      ∧ (path ++ (closing ++ rest)).dropWhile isPathGlyph = closing ++ rest := by
  have hclose : isPathGlyph (.char '}') = false := by decide +kernel
  refine takeWhile_append_stop h fun g hg => ?_
  obtain rfl : Glyph.char '}' = g := Option.some.inj hg
  exact hclose

/-- A block is found where it is printed. -/
theorem block?_print {form : BlockForm} (hpath : isPath path = true)
    (hbody : Skips (Text.dropPrefix? form.closeTag) body) (rest : Text) :
    block? form (form.openTag ++ ([.char ' '] ++ (path ++ (closing ++ (body ++ (form.closeTag ++ rest))))))
      = some (⟨path, body⟩, rest) := by
  obtain ⟨hne, hglyphs⟩ := isPathGlyph_of_isPath hpath
  have hblank : ∀ g ∈ [Glyph.char ' '], g.isBlank = true := by decide
  have hstop : ∀ g ∈ (path ++ (closing ++ (body ++ (form.closeTag ++ rest)))).head?, g.isBlank = false := by
    intro g hg
    cases path with
    | nil => exact absurd rfl hne
    | cons a path =>
        obtain rfl : a = g := Option.some.inj hg
        exact isBlank_of_isPathGlyph (hglyphs a List.mem_cons_self)
  obtain ⟨htake, hdrop⟩ := takeWhile_append_stop hblank hstop
  obtain ⟨htake', hdrop'⟩ := path_append_closing hglyphs (body ++ (form.closeTag ++ rest))
  have hclose : form.closeTag ≠ [] := by cases form <;> decide
  unfold block?
  simp only [dropPrefix?_append, htake, hdrop, htake', hdrop', cutAt?_append hclose hbody, hne, guard,
    Option.bind_eq_bind, Option.bind_some, Option.pure_def, ne_eq, reduceCtorEq, not_false_eq_true,
    if_true]

theorem name?_append (h : isName path = true) (rest : Text) :
    name? (path ++ (closing ++ rest)) = some (path, closing ++ rest) := by
  cases path with
  | nil => cases h
  | cons g path =>
      rw [isName, Bool.and_eq_true, List.all_eq_true] at h
      obtain ⟨htake, hdrop⟩ := path_append_closing h.2 rest
      rw [List.cons_append, name?, if_pos h.1, htake, hdrop]

/-- A value that is put in as it is, is found where it is printed. -/
theorem substitution?_raw (h : isName path = true) (rest : Text) :
    substitution? (opening ++ ([.char '{'] ++ (path ++ (closing ++ ([.char '}'] ++ rest)))))
      = some (⟨path, false⟩, rest) := by
  unfold substitution?
  rw [← List.append_assoc opening]
  simp only [dropPrefix?_append, name?_append h, Option.bind_eq_bind, Option.bind_some]
  rw [← List.append_assoc closing, dropPrefix?_append]
  rfl

/-- A value that is escaped is found where it is printed. -/
theorem substitution?_value (h : isName path = true) (rest : Text) :
    substitution? (opening ++ (path ++ (closing ++ rest))) = some (⟨path, true⟩, rest) := by
  have hraw : Text.dropPrefix? (opening ++ [.char '{']) (opening ++ (path ++ (closing ++ rest))) = none := by
    cases path with
    | nil => cases h
    | cons g path =>
        rw [isName, Bool.and_eq_true] at h
        exact if_neg (Ne.symm (ne_of_isNameStart h.1).1)
  unfold substitution?
  simp only [hraw, dropPrefix?_append, name?_append h, Option.bind_eq_bind, Option.bind_some]
  rfl

end Printed

end RecordStore.Template
