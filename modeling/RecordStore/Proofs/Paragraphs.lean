import Mathlib.Data.List.Forall2
import Mathlib.Data.List.Pairwise
import RecordStore.Proofs.LineBreak

/-!
# RecordStore.Proofs.Paragraphs

What markup keeps of a text.  Its paragraphs are the runs of lines between blank lines (`Grouped`), so two
lines are in one of them exactly if no blank line is between them (`Grouped.together_iff`).  Its tags can be
told from everything else, and without them, and with its references read, it has the letters of the text
(`letters_markup`).  All of this is `markup_paragraphs`.
-/

namespace RecordStore.Text

open Template (scan scan_found scan_append dropPrefix?_append dropPrefix?_eq_none)

/-! ## Runs

Grouping lines does not look at the lines themselves, but only at whether they are blank.  So it is
grouping of any elements, such as the numbers of the lines. -/

section Runs

variable {α β : Type} {ends : α → Bool} {xs run : List α}

/-- The runs of elements between those that end a run. -/
def runs (ends : α → Bool) : List α → List (List α)
  | [] => []
  | x :: rest =>
    if ends x then
      runs ends rest
    else
      match rest with
      | [] => [[x]]
      | next :: _ =>
        if ends next then
          [x] :: runs ends rest
        else
          match runs ends rest with
          | [] => [[x]]
          | run :: more => (x :: run) :: more

theorem groupLines_eq_runs (lines : List Text) : groupLines lines = runs isBlank lines := by
  fun_induction groupLines lines <;> simp_all [runs]

theorem runs_map (f : β → α) (ends : α → Bool) (xs : List β) :
    runs ends (xs.map f) = (runs (fun x => ends (f x)) xs).map (List.map f) := by
  fun_induction runs (fun x => ends (f x)) xs <;> simp_all [runs]

/-- How a list of runs comes about, from the last element to the first. -/
inductive Grouped (ends : α → Bool) : List α → List (List α) → Prop
  | nil : Grouped ends [] []
  /-- An element that ends a run is in none. -/
  | skip {x : α} {xs : List α} {rs : List (List α)} : ends x = true → Grouped ends xs rs →
      Grouped ends (x :: xs) rs
  /-- An element before one that ends a run, or before nothing, is a run. -/
  | single {x : α} {xs : List α} {rs : List (List α)} : ends x = false →
      (∀ y ∈ xs.head?, ends y = true) → Grouped ends xs rs → Grouped ends (x :: xs) ([x] :: rs)
  /-- An element before one that is in a run is in the same run. -/
  | extend {x next : α} {xs run : List α} {rs : List (List α)} : ends x = false →
      Grouped ends (next :: xs) ((next :: run) :: rs) →
      Grouped ends (x :: next :: xs) ((x :: next :: run) :: rs)

theorem grouped_runs (ends : α → Bool) (xs : List α) : Grouped ends xs (runs ends xs) := by
  fun_induction runs ends xs with
  | case1 => exact .nil
  | case2 x rest hx ih => exact .skip hx ih
  | case3 x hx => exact .single (Bool.eq_false_iff.2 hx) (by simp) .nil
  | case4 x hx next more hnext ih => exact .single (Bool.eq_false_iff.2 hx) (by simpa using hnext) ih
  | case5 x hx next more hnext hnil ih =>
      rw [hnil] at ih
      cases ih with
      | skip h => exact absurd h hnext
  | case6 x hx next more hnext run rs hruns ih =>
      rw [hruns] at ih
      rw [hruns]
      cases ih with
      | skip h => exact absurd h hnext
      | single hn hhead hrest => exact .extend (Bool.eq_false_iff.2 hx) (.single hn hhead hrest)
      | extend hn hrest => exact .extend (Bool.eq_false_iff.2 hx) (.extend hn hrest)

namespace Grouped

variable {rs : List (List α)} {ns : List Nat} {groups : List (List Nat)} {ends' : Nat → Bool}

/-- Every element that ends no run is in one, and the order is kept. -/
theorem flatten_eq (h : Grouped ends xs rs) : rs.flatten = xs.filter fun x => !ends x := by
  induction h with
  | nil => rfl
  | skip hx _ ih => simp [hx, ih]
  | single hx _ _ ih => simp [hx, ih]
  | extend hx _ ih =>
      rw [List.filter_cons_of_pos (by simp [hx]), ← ih]
      rfl

theorem nil_not_mem (h : Grouped ends xs rs) : [] ∉ rs := by
  induction h with
  | nil => exact List.not_mem_nil
  | skip _ _ ih => exact ih
  | single _ _ _ ih => simpa using ih
  | extend _ _ ih => simpa using ih

/-- Where every element ends a run there is none. -/
theorem eq_nil (h : Grouped ends xs rs) (hall : ∀ x ∈ xs, ends x = true) : rs = [] := by
  induction h with
  | nil => rfl
  | skip _ _ ih => exact ih fun x hx => hall x (List.mem_cons_of_mem _ hx)
  | single hx => exact absurd (hall _ List.mem_cons_self) (by simp [hx])
  | extend hx => exact absurd (hall _ List.mem_cons_self) (by simp [hx])

theorem mem_of_mem (h : Grouped ends xs rs) (hrun : run ∈ rs) {a : α} (ha : a ∈ run) :
    a ∈ xs ∧ ends a = false := by
  have hmem : a ∈ rs.flatten := List.mem_flatten.2 ⟨run, hrun, ha⟩
  rw [h.flatten_eq, List.mem_filter] at hmem
  exact ⟨hmem.1, by simpa using hmem.2⟩

/-- What ends a run stands before all of a run or behind all of it. -/
theorem before_or_behind (h : Grouped ends' ns groups) (hns : ns.Pairwise (· < ·)) {run : List Nat}
    {c : Nat} (hrun : run ∈ groups) (hc : c ∈ ns) (hends : ends' c = true) :
    (∀ a ∈ run, c < a) ∨ ∀ a ∈ run, a < c := by
  induction h generalizing run with
  | nil => cases hrun
  | skip hx hrest ih =>
      obtain ⟨hfirst, hns'⟩ := List.pairwise_cons.1 hns
      rcases List.mem_cons.1 hc with rfl | hc
      · exact .inl fun a ha => hfirst a (hrest.mem_of_mem hrun ha).1
      · exact ih hns' hrun hc
  | single hx hhead hrest ih =>
      obtain ⟨hfirst, hns'⟩ := List.pairwise_cons.1 hns
      rcases List.mem_cons.1 hc with rfl | hc
      · exact absurd hends (by simp [hx])
      · rcases List.mem_cons.1 hrun with rfl | hrun
        · exact .inr fun a ha => List.mem_singleton.1 ha ▸ hfirst c hc
        · exact ih hns' hrun hc
  | @extend x next ns first groups hx hrest ih =>
      obtain ⟨hfirst, hns'⟩ := List.pairwise_cons.1 hns
      rcases List.mem_cons.1 hc with rfl | hc
      · exact absurd hends (by simp [hx])
      · rcases List.mem_cons.1 hrun with rfl | hrun
        · rcases ih hns' List.mem_cons_self hc with hbefore | hbehind
          · have hlt := hbefore next List.mem_cons_self
            rcases List.mem_cons.1 hc with rfl | hc
            · omega
            · have hgt := (List.pairwise_cons.1 hns').1 c hc
              omega
          · exact .inr (List.forall_mem_cons.2 ⟨hfirst c hc, hbehind⟩)
        · exact ih hns' (List.mem_cons_of_mem _ hrun) hc

/-- Between two runs stands what ends a run. -/
theorem pairwise_apart (h : Grouped ends' ns groups) (hns : ns.Pairwise (· < ·)) :
    groups.Pairwise fun r s => ∃ c ∈ ns, ends' c = true ∧ (∀ a ∈ r, a < c) ∧ ∀ b ∈ s, c < b := by
  induction h with
  | nil => exact .nil
  | skip hx hrest ih =>
      exact (ih (List.pairwise_cons.1 hns).2).imp fun ⟨c, hc, h⟩ => ⟨c, List.mem_cons_of_mem _ hc, h⟩
  | @single x ns groups hx hhead hrest ih =>
      obtain ⟨hfirst, hns'⟩ := List.pairwise_cons.1 hns
      refine .cons (fun s hs => ?_)
        ((ih hns').imp fun ⟨c, hc, h⟩ => ⟨c, List.mem_cons_of_mem _ hc, h⟩)
      cases hrest with
      | nil => cases hs
      | skip hy hrest =>
        refine ⟨_, List.mem_cons_of_mem _ List.mem_cons_self, hy, ?_, ?_⟩
        · exact fun a ha => List.mem_singleton.1 ha ▸ hfirst _ List.mem_cons_self
        · exact fun b hb => (List.pairwise_cons.1 hns').1 b (hrest.mem_of_mem hs hb).1
      | single hy => exact absurd (hhead _ rfl) (by simp [hy])
      | extend hy => exact absurd (hhead _ rfl) (by simp [hy])
  | extend hx hrest ih =>
      obtain ⟨hfirst, hns'⟩ := List.pairwise_cons.1 hns
      obtain ⟨hothers, hrs⟩ := List.pairwise_cons.1 (ih hns')
      refine .cons (fun s hs => ?_) (hrs.imp fun ⟨c, hc, h⟩ => ⟨c, List.mem_cons_of_mem _ hc, h⟩)
      obtain ⟨c, hc, hends, hbefore, hbehind⟩ := hothers s hs
      exact ⟨c, List.mem_cons_of_mem _ hc, hends, List.forall_mem_cons.2 ⟨hfirst c hc, hbefore⟩, hbehind⟩

/-- Two elements are in one run exactly if nothing between them ends a run. -/
theorem together_iff (h : Grouped ends' ns groups) (hns : ns.Pairwise (· < ·)) {a b : Nat}
    (ha : a ∈ groups.flatten) (hb : b ∈ groups.flatten) :
    (∃ run ∈ groups, a ∈ run ∧ b ∈ run)
      ↔ ∀ c ∈ ns, (a < c ∧ c < b ∨ b < c ∧ c < a) → ends' c = false := by
  constructor
  · rintro ⟨run, hrun, har, hbr⟩ c hc hbetween
    by_contra hends
    rcases h.before_or_behind hns hrun hc (by simpa using hends) with hbefore | hbehind
    · have hca := hbefore a har
      have hcb := hbefore b hbr
      omega
    · have hac := hbehind a har
      have hbc := hbehind b hbr
      omega
  · intro hnone
    obtain ⟨r, hr, har⟩ := List.mem_flatten.1 ha
    obtain ⟨s, hs, hbs⟩ := List.mem_flatten.1 hb
    have hapart := h.pairwise_apart hns
    refine List.Pairwise.forall_of_forall_of_flip (R := fun r s => a ∈ r → b ∈ s →
      ∃ run ∈ groups, a ∈ run ∧ b ∈ run) (fun run hrun har hbr => ⟨run, hrun, har, hbr⟩)
      (hapart.imp ?_) (hapart.imp ?_) hr hs har hbs
    · rintro r s ⟨c, hc, hends, hbefore, hbehind⟩ har hbs
      exact absurd hends (by simp [hnone c hc (.inl ⟨hbefore a har, hbehind b hbs⟩)])
    · rintro s r ⟨c, hc, hends, hbefore, hbehind⟩ har hbs
      exact absurd hends (by simp [hnone c hc (.inr ⟨hbefore b hbs, hbehind a har⟩)])

end Grouped

end Runs

/-! ## What is not blank -/

/-- The glyphs of a text that are not blank. -/
def letters (t : Text) : Text := t.filter fun g => !g.isBlank

theorem letters_append (s t : Text) : letters (s ++ t) = letters s ++ letters t := List.filter_append ..

theorem letters_reverse (t : Text) : letters t.reverse = (letters t).reverse := List.filter_reverse ..

theorem letters_eq_nil_iff {t : Text} : letters t = [] ↔ t.isBlank = true := by
  simp [letters, isBlank]

/-- What goes over a text glyph by glyph goes over the texts between separators. -/
theorem map_intercalate {f : Text → Text} (hnil : f [] = []) (happend : ∀ s t, f (s ++ t) = f s ++ f t)
    (sep : Text) (ts : List Text) : f (sep.intercalate ts) = (f sep).intercalate (ts.map f) := by
  induction ts with
  | nil => exact hnil
  | cons t ts ih =>
      cases ts with
      | nil => simp
      | cons t' ts =>
          rw [List.intercalate_cons_cons, happend, happend, ih, List.map_cons, List.map_cons, List.map_cons,
            List.intercalate_cons_cons]

theorem nil_intercalate (ts : List Text) : List.intercalate [] ts = ts.flatten := by
  induction ts with
  | nil => rfl
  | cons t ts ih =>
      cases ts with
      | nil => simp
      | cons t' ts =>
          rw [List.intercalate_cons_cons, ih, List.append_nil]
          exact List.flatten_cons.symm

/-- Blanks between texts are no letters. -/
theorem letters_intercalate {sep : Text} (hsep : sep.isBlank = true) (ts : List Text) :
    letters (sep.intercalate ts) = ts.flatMap letters := by
  rw [map_intercalate rfl letters_append, letters_eq_nil_iff.2 hsep, nil_intercalate, List.flatMap_def]

/-- Blanks at the front of a text are no letters. -/
theorem letters_dropWhile (t : Text) : letters (t.dropWhile Glyph.isBlank) = letters t := by
  induction t with
  | nil => rfl
  | cons g t ih =>
      cases hg : g.isBlank with
      | true => simpa [List.dropWhile_cons, letters, hg] using ih
      | false => simp [hg]

/-- Stripping takes blanks away only. -/
theorem letters_strip (t : Text) : letters t.strip = letters t := by
  rw [strip, letters_reverse, letters_dropWhile, letters_reverse, List.reverse_reverse, letters_dropWhile]

/-- Line breaks are no letters. -/
theorem letters_unifyBreaks (t : Text) : letters t.unifyBreaks = letters t := by
  have hcr : (Glyph.char '\r').isBlank = true := by decide
  have hlf : (Glyph.char '\n').isBlank = true := by decide
  fun_induction unifyBreaks t <;> simp_all [letters, List.filter_cons]

/-! ## Tags -/

/-- The tag of a list at the front of a text, and what is behind it. -/
def tagAt? (tags : List Text) (t : Text) : Option (Text × Text) :=
  tags.findSome? fun tag => (dropPrefix? tag t).map (tag, ·)

/-- A text without the tags of a list. -/
def withoutTags (tags : List Text) (t : Text) : Text :=
  (scan (tagAt? tags) t).flatMap (Sum.elim ([·]) fun _ => [])

/-- The tags of markup. -/
def markupTags : List Text := ["<p>", "</p>", "<br>"]

/-- Of a text something is left when tags are taken away, whatever stands behind it. -/
def Leaves (tags : List Text) (s left : Text) : Prop :=
  ∀ rest, withoutTags tags (s ++ rest) = left ++ withoutTags tags rest

section Tags

variable {tags : List Text} {s s' t t' : Text}

theorem Leaves.append (hs : Leaves tags s s') (ht : Leaves tags t t') :
    Leaves tags (s ++ t) (s' ++ t') := by
  intro rest
  rw [List.append_assoc, hs, ht, List.append_assoc]

@[simp] theorem withoutTags_nil (tags : List Text) : withoutTags tags [] = [] := by
  rw [withoutTags, scan]
  rfl

theorem Leaves.withoutTags_eq (h : Leaves tags s s') : withoutTags tags s = s' := by
  have hend := h []
  rwa [withoutTags_nil, List.append_nil, List.append_nil] at hend

/-- What is written for each glyph leaves something, and so does what is written for a text. -/
theorem Leaves.flatMap {form form' : Glyph → Text} {t : Text}
    (h : ∀ g ∈ t, Leaves tags (form g) (form' g)) : Leaves tags (t.flatMap form) (t.flatMap form') := by
  induction t with
  | nil => exact fun rest => rfl
  | cons g t ih =>
      rw [List.flatMap_cons, List.flatMap_cons]
      exact (h g List.mem_cons_self).append (ih fun g hg => h g (List.mem_cons_of_mem _ hg))

theorem Leaves.intercalate {α : Type} {f f' : α → Text} {sep sep' : Text} {xs : List α}
    (hsep : Leaves tags sep sep') (h : ∀ x ∈ xs, Leaves tags (f x) (f' x)) :
    Leaves tags (sep.intercalate (xs.map f)) (sep'.intercalate (xs.map f')) := by
  induction xs with
  | nil => exact fun rest => rfl
  | cons x xs ih =>
      have hx := h x List.mem_cons_self
      have hxs := ih fun x hx => h x (List.mem_cons_of_mem _ hx)
      cases xs with
      | nil => simpa using hx
      | cons y xs =>
          simp only [List.map_cons, List.intercalate_cons_cons] at hxs ⊢
          exact (hx.append hsep).append hxs

/-- Where there is no opening bracket there is no tag. -/
theorem leaves_self (h : tags ⊆ markupTags) (hs : .char '<' ∉ s) : Leaves tags s s := by
  have hbegin : ∀ tag ∈ markupTags, tag.head? = some (.char '<') := by decide
  have hskips : Template.Skips (tagAt? tags) s := by
    refine Template.skips_of_not_mem (.char '<') (fun t ht => ?_) hs
    refine List.findSome?_eq_none_iff.2 fun tag htag => ?_
    have hfirst := hbegin tag (h htag)
    cases tag with
    | nil => cases hfirst
    | cons a tag =>
        obtain rfl : a = .char '<' := Option.some.inj hfirst
        rw [dropPrefix?_eq_none ht, Option.map_none]
  intro rest
  rw [withoutTags, scan_append hskips, List.flatMap_append, List.flatMap_map]
  exact congrArg (· ++ withoutTags tags rest) (List.flatMap_singleton' s)

/-- A tag is taken away. -/
theorem leaves_nil {tag : Text} (h : ∀ rest, tagAt? tags (tag ++ rest) = some (tag, rest))
    (hne : tag ≠ []) : Leaves tags tag [] := by
  intro rest
  have hlt : rest.length < (tag ++ rest).length := by
    have hpos := List.length_pos_iff.2 hne
    rw [List.length_append]
    omega
  rw [withoutTags, scan_found (h rest) hlt, List.flatMap_cons]
  rfl

end Tags

/-! ## Paragraphs -/

/-- What a paragraph shows: its lines, without blanks at the ends. -/
def shown (block : List Text) : Text := strip ([Glyph.char '\n'].intercalate block)

/-- What stands between the tags of a paragraph. -/
def body (block : List Text) : Text :=
  (escape (shown block)).flatMap fun g => if g = .char '\n' then "<br>\n" else [g]

/-- A body in the tags of a paragraph. -/
def inParagraph (b : Text) : Text := "<p>" ++ b ++ "</p>"

theorem paragraph_eq_body (block : List Text) : paragraph block = inParagraph (body block) := rfl

theorem not_bracket_of_mem_escape {t : Text} {g : Glyph} (h : g ∈ t.escape) :
    g ≠ .char '<' ∧ g ≠ .char '>' :=
  ⟨(escape_inert h).1, (escape_inert h).2.1⟩

section Paragraphs

variable {tags : List Text}

/-- A body without the tags at its line breaks is the escaped text. -/
theorem leaves_body (htags : tags ⊆ markupTags)
    (hbreak : ∀ rest, tagAt? tags ("<br>" ++ rest) = some (ofString "<br>", rest)) (block : List Text) :
    Leaves tags (body block) (escape (shown block)) := by
  have hglyphs : Leaves tags (body block) ((escape (shown block)).flatMap ([·])) := by
    refine Leaves.flatMap fun g hg => ?_
    split
    · next hlf =>
      have hself : Leaves tags [.char '\n'] [.char '\n'] := leaves_self htags (by decide)
      rw [hlf]
      exact (leaves_nil hbreak (List.cons_ne_nil _ _)).append hself
    · exact leaves_self htags (by simpa using (not_bracket_of_mem_escape hg).1.symm)
  rwa [List.flatMap_singleton'] at hglyphs

/-- The markup without its tags is the escaped text of its paragraphs. -/
theorem withoutTags_paragraphs (blocks : List (List Text)) :
    withoutTags markupTags ([Glyph.char '\n'].intercalate (blocks.map paragraph))
      = escape ([Glyph.char '\n'].intercalate (blocks.map shown)) := by
  have hall : markupTags ⊆ markupTags := fun _ h => h
  have hparagraph : ∀ block ∈ blocks, Leaves markupTags (paragraph block) (escape (shown block)) := by
    intro block _
    have hopen : Leaves markupTags "<p>" [] := leaves_nil (fun _ => rfl) (by decide)
    have hclose : Leaves markupTags "</p>" [] := leaves_nil (fun _ => rfl) (by decide)
    have hbody := leaves_body hall (fun _ => rfl) block
    have htagged := (hopen.append hbody).append hclose
    rwa [List.nil_append, List.append_nil] at htagged
  rw [(Leaves.intercalate (leaves_self hall (by decide)) hparagraph).withoutTags_eq]
  rw [map_intercalate rfl escape_append, List.map_map]
  rfl

/-- The letters of the lines of a text are its letters. -/
theorem letters_brokenLines (t : Text) : t.brokenLines.flatMap letters = letters t := by
  have hlf : isBlank [Glyph.char '\n'] = true := by decide
  rw [← feedLines_unifyBreaks, ← letters_intercalate hlf, feedLines, intercalate_splitOn,
    letters_unifyBreaks]

/-- The groups of lines are nothing but the lines that are not blank. -/
theorem flatten_groupLines (lines : List Text) :
    (groupLines lines).flatten = lines.filter fun line => !line.isBlank := by
  rw [groupLines_eq_runs]
  exact (grouped_runs isBlank lines).flatten_eq

/-- Blank lines have no letters. -/
theorem flatMap_letters_filter (lines : List Text) :
    (lines.filter fun line => !line.isBlank).flatMap letters = lines.flatMap letters := by
  induction lines with
  | nil => rfl
  | cons line lines ih =>
      cases hblank : line.isBlank with
      | true =>
          rw [List.filter_cons_of_neg (by simp [hblank]), ih, List.flatMap_cons,
            letters_eq_nil_iff.2 hblank, List.nil_append]
      | false => rw [List.filter_cons_of_pos (by simp [hblank]), List.flatMap_cons, ih, List.flatMap_cons]

/-- No letter is lost by grouping lines. -/
theorem letters_groupLines (lines : List Text) :
    (groupLines lines).flatMap (fun block => block.flatMap letters) = lines.flatMap letters := by
  rw [← flatMap_letters_filter, ← flatten_groupLines, List.flatten_eq_flatMap, List.flatMap_assoc]
  rfl

theorem letters_shown (block : List Text) : letters (shown block) = block.flatMap letters := by
  rw [shown, letters_strip, letters_intercalate (by decide)]

/-- The groups of lines that become the paragraphs of a text. -/
def blocks (t : Text) : List (List Text) := groupLines t.brokenLines

theorem markup_eq_paragraphs (t : Text) :
    t.markup = [Glyph.char '\n'].intercalate (t.blocks.map paragraph) := by
  rw [markup, feedLines_unifyBreaks]
  rfl

/-- **Content.** Without its tags the markup of a text has the letters of the text. -/
theorem letters_markup (t : Text) :
    letters (decodeIn entities (withoutTags markupTags t.markup)) = letters t := by
  rw [markup_eq_paragraphs, withoutTags_paragraphs, decodeIn_entities_escape, letters_intercalate (by decide),
    List.flatMap_map]
  simp only [letters_shown]
  rw [blocks, letters_groupLines, letters_brokenLines]

/-- Nothing is written exactly for a text of blanks. -/
theorem markup_eq_nil_iff {t : Text} : t.markup = [] ↔ t.isBlank = true := by
  constructor
  · intro h
    have hletters := t.letters_markup
    rw [h, withoutTags_nil, decodeIn_nil] at hletters
    exact letters_eq_nil_iff.1 hletters.symm
  · intro h
    have hlines : ∀ line ∈ t.brokenLines, line.isBlank = true := by
      intro line hline
      have hnone := t.letters_brokenLines.trans (letters_eq_nil_iff.2 h)
      exact letters_eq_nil_iff.1 (List.flatMap_eq_nil_iff.1 hnone line hline)
    have hblocks : t.blocks = [] := by
      rw [blocks, groupLines_eq_runs]
      exact (grouped_runs isBlank t.brokenLines).eq_nil hlines
    rw [markup_eq_paragraphs, hblocks]
    rfl

end Paragraphs

/-! ## Markup -/

/-- A line of a text by its number; behind the last line there is nothing. -/
def lineAt (t : Text) (n : Nat) : Text := t.brokenLines.getD n []

/-- The numbers of the lines of a text that are not blank, in their order. -/
def writtenLines (t : Text) : List Nat :=
  (List.range t.brokenLines.length).filter fun n => !(t.lineAt n).isBlank

/-- The numbers of the lines that become one paragraph, for each paragraph. -/
def lineGroups (t : Text) : List (List Nat) :=
  runs (fun n => (t.lineAt n).isBlank) (List.range t.brokenLines.length)

theorem grouped_lineGroups (t : Text) :
    Grouped (fun n => (t.lineAt n).isBlank) (List.range t.brokenLines.length) t.lineGroups :=
  grouped_runs _ _

theorem writtenLines_eq (t : Text) : t.lineGroups.flatten = t.writtenLines :=
  t.grouped_lineGroups.flatten_eq

/-- The groups of lines are those of their numbers. -/
theorem blocks_eq (t : Text) : t.blocks = t.lineGroups.map (List.map t.lineAt) := by
  have hlines : (List.range t.brokenLines.length).map t.lineAt = t.brokenLines := by
    refine List.ext_getElem (by simp) fun n hn hn' => ?_
    simp [lineAt, hn']
  rw [lineGroups, ← runs_map, hlines, blocks, groupLines_eq_runs]

/-- What stands between the tags of a paragraph of lines: it is not empty, has no tags but those at
line breaks, and reads as the lines. -/
structure IsBody (lines : List Text) (b : Text) : Prop where
  ne_nil : b ≠ []
  tags : ∀ g ∈ withoutTags ["<br>"] b, g ≠ .char '<' ∧ g ≠ .char '>'
  reads : decodeIn entities (withoutTags ["<br>"] b) = strip ([Glyph.char '\n'].intercalate lines)

theorem isBody_body {block : List Text} (h : ∃ line ∈ block, line.isBlank = false) :
    IsBody block (body block) := by
  have hleft : withoutTags ["<br>"] (body block) = escape (shown block) :=
    (leaves_body (by decide) (fun _ => rfl) block).withoutTags_eq
  refine ⟨fun hnil => ?_, fun g hg => ?_, ?_⟩
  · obtain ⟨line, hline, hletters⟩ := h
    have hshown : shown block = [] := by
      rw [hnil, withoutTags_nil] at hleft
      rw [← decodeIn_entities_escape (shown block), ← hleft, decodeIn_nil]
    have hnone := letters_shown block
    rw [hshown] at hnone
    have hblank := letters_eq_nil_iff.1 (List.flatMap_eq_nil_iff.1 hnone.symm line hline)
    rw [hblank] at hletters
    cases hletters
  · rw [hleft] at hg
    exact not_bracket_of_mem_escape hg
  · rw [hleft, decodeIn_entities_escape]
    rfl

/-- **Markup.** Nothing is written for a text of blanks alone.  The only tags in the markup of a text
are those of paragraphs and line breaks; without them, and with its references read, it has the letters of
the text.  It consists of paragraphs, and each of them of lines of the text, such that every line that is
not blank is in one and their order is kept; two lines are in the same paragraph exactly if no line between
them is blank. -/
theorem markup_paragraphs (t : Text) :
    (t.markup = [] ↔ t.isBlank = true)
      ∧ (∀ g ∈ withoutTags markupTags t.markup, g ≠ .char '<' ∧ g ≠ .char '>')
      ∧ letters (decodeIn entities (withoutTags markupTags t.markup)) = letters t
      ∧ ∃ (bodies : List Text) (groups : List (List Nat)),
        t.markup = [Glyph.char '\n'].intercalate (bodies.map inParagraph)
          ∧ List.Forall₂ (fun group b => IsBody (group.map t.lineAt) b) groups bodies
          ∧ [] ∉ groups ∧ groups.flatten = t.writtenLines
          ∧ ∀ m ∈ t.writtenLines, ∀ n ∈ t.writtenLines, (∃ group ∈ groups, m ∈ group ∧ n ∈ group)
            ↔ ∀ k, (m < k ∧ k < n ∨ n < k ∧ k < m) → (t.lineAt k).isBlank = false := by
  have hgroups := t.grouped_lineGroups
  refine ⟨markup_eq_nil_iff, fun g hg => ?_, t.letters_markup, t.blocks.map body, t.lineGroups, ?_, ?_,
    hgroups.nil_not_mem, writtenLines_eq t, fun m hm n hn => ?_⟩
  · rw [markup_eq_paragraphs, withoutTags_paragraphs] at hg
    exact not_bracket_of_mem_escape hg
  · rw [markup_eq_paragraphs, List.map_map]
    rfl
  · rw [blocks_eq, List.map_map, List.forall₂_map_right_iff, List.forall₂_same]
    intro group hgroup
    obtain ⟨n, rest, hcons⟩ := List.exists_cons_of_ne_nil fun hnil => hgroups.nil_not_mem (hnil ▸ hgroup)
    have hn : n ∈ group := hcons ▸ List.mem_cons_self
    exact isBody_body ⟨_, List.mem_map_of_mem hn, (hgroups.mem_of_mem hgroup hn).2⟩
  · rw [← writtenLines_eq] at hm hn
    rw [hgroups.together_iff List.pairwise_lt_range hm hn]
    have hin : ∀ {n}, n ∈ t.lineGroups.flatten → n < t.brokenLines.length := by
      intro n hn
      obtain ⟨group, hgroup, hn⟩ := List.mem_flatten.1 hn
      exact List.mem_range.1 (hgroups.mem_of_mem hgroup hn).1
    have hm' := hin hm
    have hn' := hin hn
    exact ⟨fun h k hk => h k (List.mem_range.2 (by omega)) hk, fun h k _ hk => h k hk⟩

end RecordStore.Text
