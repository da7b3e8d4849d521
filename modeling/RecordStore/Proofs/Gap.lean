import Mathlib.Data.List.DropRight
import RecordStore.Proofs.Paragraphs

/-!
# RecordStore.Proofs.Gap

Markup, pass by pass.  A gap is a line feed, blanks and another line feed, as many as there are
(`behindFeed?`).  Cutting a text without blanks at its ends wherever there is a gap gives the groups of
lines that blank lines set apart (`splitGaps_joined`), and blanks at the ends of a text are in no paragraph
(`pieces_strip`).  So markup is what it is when line breaks, blanks, gaps and references are each seen to
in a pass of its own: `markup_eq_passes`.
-/

namespace RecordStore.Text

open Template (scan scan_found)

/-! ## Gaps -/

/-- What is behind the last line feed among the blanks at the front of a text. -/
def behindFeed? : Text → Option Text
  | [] => none
  | g :: t =>
    if g.isBlank then
      (behindFeed? t).or (if g = .char '\n' then some t else none)
    else
      none

/-- A gap at the front of a text, and what is behind it. -/
def gap? : Text → Option (Unit × Text)
  | .char '\n' :: t => (behindFeed? t).map ((), ·)
  | _ => none

/-- The texts between the gaps of a text. -/
def splitGaps (t : Text) : List Text := (splitOn (.inr ()) (scan gap? t)).map (List.filterMap Sum.getLeft?)

section Gaps

variable {g : Glyph} {s t behind : Text}

theorem behindFeed?_feed (t : Text) : behindFeed? (.char '\n' :: t) = (behindFeed? t).or (some t) := rfl

/-- A line of blanks is passed over, and any other line has no gap before it. -/
theorem behindFeed?_append (hs : .char '\n' ∉ s) (t : Text) :
    behindFeed? (s ++ t) = if s.isBlank then behindFeed? t else none := by
  induction s with
  | nil => rfl
  | cons g s ih =>
      rw [List.mem_cons, not_or] at hs
      rw [List.cons_append, behindFeed?, ih hs.2, if_neg (Ne.symm hs.1), Option.or_none]
      cases hg : g.isBlank <;> simp [isBlank, hg]

theorem length_behindFeed? (h : behindFeed? t = some behind) : behind.length < t.length := by
  induction t with
  | nil => cases h
  | cons g t ih =>
      rw [behindFeed?] at h
      split at h
      · rcases Option.or_eq_some_iff.1 h with h | ⟨-, h⟩
        · exact Nat.lt_succ_of_lt (ih h)
        · split at h
          · cases h
            exact Nat.lt_succ_self _
          · cases h
      · cases h

theorem gap?_of_ne (h : g ≠ .char '\n') (t : Text) : gap? (g :: t) = none := by
  unfold gap?
  split
  · next heq => exact absurd (List.cons.inj heq).1 h
  · rfl

theorem splitGaps_ne_nil (t : Text) : splitGaps t ≠ [] := by
  rw [splitGaps, ne_eq, List.map_eq_nil_iff]
  exact splitOn_ne_nil _ _

/-- A gap is cut away. -/
theorem splitGaps_gap (h : behindFeed? t = some behind) :
    splitGaps (.char '\n' :: t) = [] :: splitGaps behind := by
  have hfound : gap? (.char '\n' :: t) = some ((), behind) := by
    rw [gap?, h]
    rfl
  rw [splitGaps, scan_found hfound (Nat.lt_succ_of_lt (length_behindFeed? h)), splitOn, if_pos rfl]
  rfl

/-- A glyph where there is no gap stays. -/
theorem splitGaps_cons (h : gap? (g :: t) = none) :
    splitGaps (g :: t) = (splitGaps t).modifyHead (g :: ·) := by
  have hscan : scan gap? (g :: t) = .inl g :: scan gap? t := by
    rw [scan.eq_def]
    simp only [h]
  obtain ⟨piece, pieces, hpieces⟩ :=
    List.exists_cons_of_ne_nil (splitOn_ne_nil (Sum.inr ()) (scan gap? t))
  rw [splitGaps, hscan, splitOn, if_neg Sum.inl_ne_inr, splitGaps, hpieces]
  rfl

/-- A line has no gaps. -/
theorem splitGaps_append (hs : .char '\n' ∉ s) (t : Text) :
    splitGaps (s ++ t) = (splitGaps t).modifyHead (s ++ ·) := by
  induction s with
  | nil => cases h : splitGaps t <;> simp [h]
  | cons g s ih =>
      rw [List.mem_cons, not_or] at hs
      rw [List.cons_append, splitGaps_cons (gap?_of_ne (Ne.symm hs.1) _), ih hs.2, List.modifyHead_modifyHead]
      rfl

end Gaps

/-! ## Lines -/

/-- Lines with line feeds between them. -/
abbrev joined (lines : List Text) : Text := [Glyph.char '\n'].intercalate lines

section Lines

variable {line : Text} {lines : List Text}

theorem shown_eq (lines : List Text) : shown lines = strip (joined lines) := rfl

theorem joined_cons (line : Text) (h : lines ≠ []) :
    joined (line :: lines) = line ++ .char '\n' :: joined lines := by
  obtain ⟨next, more, rfl⟩ := List.exists_cons_of_ne_nil h
  rw [joined, List.intercalate_cons_cons, List.append_assoc]
  rfl

/-- Lines, of which the last is not blank. -/
structure Written (lines : List Text) : Prop where
  noFeed : ∀ line ∈ lines, .char '\n' ∉ line
  last : ∃ line ∈ lines.getLast?, line.isBlank = false

theorem Written.ne_nil (h : Written lines) : lines ≠ [] := by
  rintro rfl
  obtain ⟨line, hline, -⟩ := h.last
  cases hline

/-- A blank line is not the last one. -/
theorem Written.ne_nil_of_blank (h : Written (line :: lines)) (hblank : line.isBlank = true) :
    lines ≠ [] := by
  rintro rfl
  obtain ⟨last, hlast, hwritten⟩ := h.last
  obtain rfl : line = last := Option.some.inj hlast
  rw [hblank] at hwritten
  cases hwritten

theorem Written.tail {next : Text} {more : List Text} (h : Written (line :: next :: more)) :
    Written (next :: more) :=
  ⟨fun l hl => h.noFeed l (List.mem_cons_of_mem _ hl), by simpa only [List.getLast?_cons_cons] using h.last⟩

/-- The gap before a line that is blank reaches to the next line that is not. -/
theorem Written.behindFeed?_joined (h : Written (line :: lines)) : behindFeed? (joined (line :: lines))
    = if line.isBlank then some (joined ((line :: lines).dropWhile isBlank)) else none := by
  have hline := h.noFeed line List.mem_cons_self
  induction lines generalizing line with
  | nil =>
      obtain ⟨last, hlast, hblank⟩ := h.last
      obtain rfl : line = last := Option.some.inj hlast
      have hnone := behindFeed?_append hline []
      rw [List.append_nil, hblank] at hnone
      simpa [hblank] using hnone
  | cons next more ih =>
      rw [joined_cons line (List.cons_ne_nil _ _), behindFeed?_append hline, behindFeed?_feed,
        ih h.tail (h.tail.noFeed next List.mem_cons_self)]
      cases hblank : line.isBlank with
      | false => rfl
      | true => cases hnext : next.isBlank <;> simp [hblank, hnext]

/-- **Gaps** are blank lines: between the gaps of lines there are the groups of those that are not blank. -/
theorem splitGaps_joined (h : Written lines) :
    splitGaps (joined (lines.dropWhile isBlank)) = (groupLines lines).map joined := by
  -- a gap takes all blank lines that follow, so the statement drops those at the front
  fun_induction groupLines lines with
  | case1 => exact absurd rfl h.ne_nil
  | case2 line rest hblank ih =>
      obtain ⟨next, more, rfl⟩ := List.exists_cons_of_ne_nil (h.ne_nil_of_blank hblank)
      rw [List.dropWhile_cons_of_pos hblank]
      exact ih h.tail
  | case3 line hblank =>
      have hpiece := splitGaps_append (h.noFeed line List.mem_cons_self) []
      rw [List.append_nil] at hpiece
      rw [List.dropWhile_cons_of_neg hblank]
      simpa [splitGaps, scan, splitOn] using hpiece
  | case4 line hblank next more hnext ih =>
      rw [List.dropWhile_cons_of_neg hblank, joined_cons line (List.cons_ne_nil _ _),
        splitGaps_append (h.noFeed line List.mem_cons_self)]
      have hgap := h.tail.behindFeed?_joined
      rw [if_pos hnext] at hgap
      rw [splitGaps_gap hgap, ih h.tail]
      simp
  | case5 line hblank next more hnext hnil ih =>
      have hgroups := ih h.tail
      rw [hnil] at hgroups
      exact absurd hgroups (splitGaps_ne_nil _)
  | case6 line hblank next more hnext block blocks hgroups ih =>
      have hblock : block ≠ [] := by
        rintro rfl
        refine (grouped_runs isBlank (next :: more)).nil_not_mem ?_
        rw [← groupLines_eq_runs, hgroups]
        exact List.mem_cons_self
      have hrest := ih h.tail
      rw [List.dropWhile_cons_of_neg hnext, hgroups] at hrest
      have hgap : gap? (.char '\n' :: joined (next :: more)) = none := by
        rw [gap?, h.tail.behindFeed?_joined, if_neg hnext]
        rfl
      rw [List.dropWhile_cons_of_neg hblank, joined_cons line (List.cons_ne_nil _ _),
        splitGaps_append (h.noFeed line List.mem_cons_self), splitGaps_cons hgap, hrest, hgroups]
      simp [joined_cons line hblock]

end Lines

/-! ## Blanks at the ends -/

section Ends

variable {g : Glyph} {t b line : Text}

/-- The paragraphs of a text whose line breaks are line feeds, as they are shown. -/
def pieces (t : Text) : List Text := (groupLines (feedLines t)).map shown

/-- Stripping leaves nothing exactly of a text of blanks. -/
theorem strip_eq_nil_iff : t.strip = [] ↔ t.isBlank = true := by
  rw [strip, List.reverse_eq_nil_iff, List.dropWhile_eq_nil_iff, isBlank, List.all_eq_true]
  refine ⟨fun h => ?_, fun h g hg => h g ((List.dropWhile_suffix _).subset (List.mem_reverse.1 hg))⟩
  by_cases hnil : t.dropWhile Glyph.isBlank = []
  · exact List.dropWhile_eq_nil_iff.1 hnil
  · have hblank := h _ (List.mem_reverse.2 (List.head_mem hnil))
    rw [List.head_dropWhile_not Glyph.isBlank hnil] at hblank
    cases hblank

/-- Blanks behind a text are stripped. -/
theorem strip_append (hb : b.isBlank = true) (t : Text) : strip (t ++ b) = strip t := by
  rw [isBlank, List.all_eq_true] at hb
  rw [strip, List.dropWhile_append, strip]
  split
  · next hnil => rw [List.isEmpty_iff.1 hnil, List.dropWhile_eq_nil_iff.2 hb]
  · rw [List.reverse_append, List.dropWhile_append_of_pos fun g hg => hb g (List.mem_reverse.1 hg)]

theorem groupLines_of_blank (h : line.isBlank = true) (rest : List Text) :
    groupLines (line :: rest) = groupLines rest := by
  cases rest <;> simp [groupLines, h]

theorem groupLines_ne_nil (h : line.isBlank = false) (rest : List Text) :
    groupLines (line :: rest) ≠ [] := by
  intro hnil
  have hflat := flatten_groupLines (line :: rest)
  rw [hnil, List.filter_cons_of_pos (by simp [h])] at hflat
  cases hflat

/-- A line that is not blank is in the group of the next line, or in one of its own if that is blank. -/
theorem groupLines_cons_cons (h : line.isBlank = false) (next : Text) (more : List Text) :
    groupLines (line :: next :: more) = if next.isBlank then [line] :: groupLines (next :: more)
      else (groupLines (next :: more)).modifyHead (line :: ·) := by
  rw [groupLines, if_neg (by simp [h])]
  cases hnext : next.isBlank with
  | true => rfl
  | false =>
      obtain ⟨block, blocks, hgroups⟩ := List.exists_cons_of_ne_nil (groupLines_ne_nil hnext more)
      rw [if_neg Bool.false_ne_true, if_neg Bool.false_ne_true, hgroups]
      rfl

/-- What follows a line that is not blank does not depend on that line. -/
theorem exists_groupLines (rest : List Text) : ∃ block blocks, ∀ line : Text, line.isBlank = false →
    groupLines (line :: rest) = (line :: block) :: blocks := by
  cases rest with
  | nil => exact ⟨[], [], fun line h => by simp [groupLines, h]⟩
  | cons next more =>
      cases hnext : next.isBlank with
      | true =>
          refine ⟨[], groupLines (next :: more), fun line h => ?_⟩
          rw [groupLines_cons_cons h, if_pos hnext]
      | false =>
          obtain ⟨block, blocks, hgroups⟩ := List.exists_cons_of_ne_nil (groupLines_ne_nil hnext more)
          refine ⟨block, blocks, fun line h => ?_⟩
          rw [groupLines_cons_cons h, if_neg (by simp [hnext]), hgroups, List.modifyHead_cons]

/-- A blank in front of a text is in no paragraph. -/
theorem pieces_cons (hg : g.isBlank = true) (t : Text) : pieces (g :: t) = pieces t := by
  unfold pieces feedLines
  rw [splitOn]
  split
  · rw [groupLines_of_blank rfl]
  · obtain ⟨line, lines, hlines⟩ := List.exists_cons_of_ne_nil (splitOn_ne_nil (Glyph.char '\n') t)
    obtain ⟨block, blocks, hgroups⟩ := exists_groupLines lines
    have hsame : isBlank (g :: line) = isBlank line := by simp [isBlank, hg]
    rw [hlines]
    dsimp only
    cases hline : isBlank line with
    | true => rw [groupLines_of_blank (hsame.trans hline), groupLines_of_blank hline]
    | false =>
        rw [hgroups _ (hsame.trans hline), hgroups _ hline, List.map_cons, List.map_cons]
        refine congrArg (· :: _) ?_
        have hfront : joined ((g :: line) :: block) = g :: joined (line :: block) := by
          cases block <;> simp [List.intercalate_cons_cons]
        rw [shown_eq, hfront, shown_eq, strip, List.dropWhile_cons_of_pos hg, strip]

/- Blanks behind a text stand in its last line or behind it.  In a paragraph of several lines they are not
behind every line, so what is compared are not the lines of two groups but the texts that they make. -/

/-- A block of lines with blanks behind it. -/
def Trails (block block' : List Text) : Prop :=
  ∃ b : Text, b.isBlank = true ∧ joined block' = joined block ++ b

variable {block block' : List Text}

theorem Trails.cons (h : Trails block block') (hne : block ≠ []) (hne' : block' ≠ []) (line : Text) :
    Trails (line :: block) (line :: block') := by
  obtain ⟨b, hb, hblock⟩ := h
  exact ⟨b, hb, by rw [joined_cons line hne, joined_cons line hne', hblock, List.append_assoc]; rfl⟩

theorem Trails.same (h : Trails block block') : shown block' = shown block := by
  obtain ⟨b, hb, hblock⟩ := h
  rw [shown_eq, hblock, strip_append hb, shown_eq]

theorem trails_refl (block : List Text) : Trails block block := ⟨[], rfl, (List.append_nil _).symm⟩

/-- A line before lines of which only the last has more blanks behind it. -/
theorem groupLines_trails_cons {a c : Text} {as cs : List Text} (hsame : c.isBlank = a.isBlank)
    (h : List.Forall₂ Trails (groupLines (a :: as)) (groupLines (c :: cs))) (line : Text) :
    List.Forall₂ Trails (groupLines (line :: a :: as)) (groupLines (line :: c :: cs)) := by
  cases hblank : line.isBlank with
  | true =>
      rw [groupLines_of_blank hblank, groupLines_of_blank hblank]
      exact h
  | false =>
      rw [groupLines_cons_cons hblank, groupLines_cons_cons hblank, hsame]
      cases hnext : a.isBlank with
      | true => exact .cons (trails_refl [line]) h
      | false =>
          obtain ⟨block, blocks, hgroups⟩ := exists_groupLines as
          obtain ⟨block', blocks', hgroups'⟩ := exists_groupLines cs
          rw [hgroups a hnext, hgroups' c (hsame.trans hnext)] at h ⊢
          obtain ⟨hfirst, hrest⟩ := List.forall₂_cons.1 h
          exact .cons (hfirst.cons (List.cons_ne_nil _ _) (List.cons_ne_nil _ _) line) hrest

theorem groupLines_eq_nil {lines : List Text} (h : ∀ line ∈ lines, line.isBlank = true) :
    groupLines lines = [] := by
  rw [groupLines_eq_runs]
  exact (grouped_runs isBlank lines).eq_nil h

/-- Blanks behind the last line, and blank lines behind it, are in no group of lines. -/
theorem groupLines_trails {f : Text} {fs : List Text} (hf : f.isBlank = true)
    (hfs : ∀ line ∈ fs, line.isBlank = true) (init : List Text) (last : Text) :
    List.Forall₂ Trails (groupLines (init ++ [last])) (groupLines (init ++ (last ++ f) :: fs)) := by
  have hlast : isBlank (last ++ f) = last.isBlank := by
    rw [isBlank] at hf
    simp [isBlank, hf]
  induction init with
  | nil =>
      cases hblank : last.isBlank with
      | true =>
          rw [List.nil_append, List.nil_append, groupLines_of_blank hblank,
            groupLines_of_blank (hlast.trans hblank), groupLines_eq_nil hfs]
          exact .nil
      | false =>
          have hgroups : groupLines ((last ++ f) :: fs) = [[last ++ f]] := by
            cases fs with
            | nil => simp [groupLines, hlast, hblank]
            | cons next more =>
                rw [groupLines_cons_cons (hlast.trans hblank), if_pos (hfs next List.mem_cons_self),
                  groupLines_eq_nil hfs]
          rw [List.nil_append, List.nil_append, hgroups, groupLines, if_neg (by simp [hblank])]
          exact .cons ⟨f, hf, by simp⟩ .nil
  | cons line init ih =>
      cases init with
      | nil => exact groupLines_trails_cons hlast ih line
      | cons next init => exact groupLines_trails_cons rfl ih line

/-- Behind a text, the lines of another one follow in its last line. -/
theorem exists_splitOn_append (sep : Glyph) (t : Text) : ∃ init last, splitOn sep t = init ++ [last]
    ∧ ∀ s, splitOn sep (t ++ s) = init ++ (splitOn sep s).modifyHead (last ++ ·) := by
  induction t with
  | nil =>
      refine ⟨[], [], rfl, fun s => ?_⟩
      cases h : splitOn sep s <;> simp [h]
  | cons g t ih =>
      obtain ⟨init, last, ht, happend⟩ := ih
      by_cases hg : g = sep
      · exact ⟨[] :: init, last, by rw [splitOn, if_pos hg, ht]; rfl,
          fun s => by rw [List.cons_append, splitOn, if_pos hg, happend]; rfl⟩
      · cases init with
        | nil =>
            refine ⟨[], g :: last, by rw [splitOn, if_neg hg, ht]; rfl, fun s => ?_⟩
            obtain ⟨piece, pieces, hs⟩ := List.exists_cons_of_ne_nil (splitOn_ne_nil sep s)
            rw [List.cons_append, splitOn, if_neg hg, happend, hs]
            rfl
        | cons piece pieces =>
            exact ⟨(g :: piece) :: pieces, last, by rw [splitOn, if_neg hg, ht]; rfl,
              fun s => by rw [List.cons_append, splitOn, if_neg hg, happend]; rfl⟩

/-- Blanks behind a text are in no paragraph. -/
theorem pieces_append (hb : b.isBlank = true) (t : Text) : pieces (t ++ b) = pieces t := by
  obtain ⟨init, last, ht, happend⟩ := exists_splitOn_append (.char '\n') t
  obtain ⟨f, fs, hb'⟩ := List.exists_cons_of_ne_nil (splitOn_ne_nil (Glyph.char '\n') b)
  have hblank : ∀ line ∈ splitOn (.char '\n') b, isBlank line = true := by
    intro line hline
    rw [isBlank, List.all_eq_true] at hb ⊢
    exact fun g hg => hb g (mem_of_mem_splitOn hline hg)
  rw [hb', List.forall_mem_cons] at hblank
  have htrails := groupLines_trails hblank.1 hblank.2 init last
  unfold pieces feedLines
  rw [happend, hb', ht]
  have hshown := List.forall₂_map_left_iff.2 (List.forall₂_map_right_iff.2
    (htrails.imp fun _ _ h => h.same.symm))
  rw [List.forall₂_eq_eq_eq] at hshown
  exact hshown.symm

/-- **Blanks** at the ends of a text are in no paragraph. -/
theorem pieces_strip (t : Text) : pieces t.strip = pieces t := by
  have hfront : ∀ {s : Text}, s.isBlank = true → ∀ t, pieces (s ++ t) = pieces t := by
    intro s hs t
    induction s with
    | nil => rfl
    | cons g s ih =>
        rw [isBlank, List.all_cons, Bool.and_eq_true] at hs
        rw [List.cons_append, pieces_cons hs.1, ih hs.2]
  have hbehind : isBlank ((t.dropWhile Glyph.isBlank).rtakeWhile Glyph.isBlank) = true :=
    List.all_eq_true.2 fun g hg => List.mem_rtakeWhile_imp hg
  have hbefore : isBlank (t.takeWhile Glyph.isBlank) = true :=
    List.all_eq_true.2 fun g hg => List.mem_takeWhile_imp hg
  have hstrip : t.strip = (t.dropWhile Glyph.isBlank).rdropWhile Glyph.isBlank := rfl
  rw [← pieces_append hbehind, hstrip, List.rdropWhile_append_rtakeWhile, ← hfront hbefore,
    List.takeWhile_append_dropWhile]

end Ends

/-! ## Markup -/

section Markup

variable {t piece : Text} {sep : Glyph}

theorem not_mem_of_mem_splitOn (h : piece ∈ splitOn sep t) : sep ∉ piece := by
  induction t generalizing piece with
  | nil => rw [List.mem_singleton.1 h]; exact List.not_mem_nil
  | cons g t ih =>
      obtain ⟨first, pieces, hs⟩ := List.exists_cons_of_ne_nil (splitOn_ne_nil sep t)
      rw [hs] at ih
      rw [splitOn] at h
      split at h
      · rcases List.mem_cons.1 h with rfl | h
        · exact List.not_mem_nil
        · exact ih (hs ▸ h)
      · next hne =>
        rw [hs] at h
        rcases List.mem_cons.1 h with rfl | h
        · rw [List.mem_cons, not_or]
          exact ⟨Ne.symm hne, ih List.mem_cons_self⟩
        · exact ih (List.mem_cons_of_mem _ h)

/-- The last line of a stripped text is not blank. -/
theorem written_strip (h : t.strip ≠ []) : Written (feedLines t.strip) := by
  have hlast : ¬ (t.strip.getLast h).isBlank = true := List.rdropWhile_last_not _ _ h
  have hne : t.strip.getLast h ≠ .char '\n' := by
    intro heq
    rw [heq] at hlast
    exact hlast (by decide)
  obtain ⟨init, last, -, happend⟩ := exists_splitOn_append (.char '\n') t.strip.dropLast
  have hlines := happend [t.strip.getLast h]
  rw [List.dropLast_concat_getLast, splitOn, if_neg hne] at hlines
  refine ⟨fun line hline => not_mem_of_mem_splitOn hline, last ++ [t.strip.getLast h], ?_, ?_⟩
  · rw [feedLines, hlines]
    simp [splitOn]
  · simp [isBlank, hlast]

/-- The first line of a stripped text is not blank. -/
theorem dropWhile_feedLines_strip (h : t.strip ≠ []) :
    (feedLines t.strip).dropWhile isBlank = feedLines t.strip := by
  obtain ⟨g, rest, hcons⟩ := List.exists_cons_of_ne_nil h
  have hg : ¬ g.isBlank = true := by
    obtain ⟨behind, hbehind⟩ := List.rdropWhile_prefix Glyph.isBlank (t.dropWhile Glyph.isBlank)
    have hfront : t.dropWhile Glyph.isBlank = g :: (rest ++ behind) := by
      rw [← hbehind, show (t.dropWhile Glyph.isBlank).rdropWhile Glyph.isBlank = g :: rest from hcons]
      rfl
    have hhead := List.head?_dropWhile_not Glyph.isBlank t
    rw [hfront] at hhead
    simpa using hhead
  have hne : g ≠ .char '\n' := by
    rintro rfl
    exact hg (by decide)
  obtain ⟨line, lines, hlines⟩ := List.exists_cons_of_ne_nil (splitOn_ne_nil (Glyph.char '\n') rest)
  rw [hcons, feedLines, splitOn, if_neg hne, hlines]
  exact List.dropWhile_cons_of_neg (by simp [isBlank, hg])

/-- Markup of a text, pass by pass. -/
def markupPasses (t : Text) : Text :=
  let stripped := strip (unifyPasses t)
  if stripped = [] then
    []
  else
    [Glyph.char '\n'].intercalate ((splitGaps stripped).map fun block =>
      inParagraph (replaceAll [.char '\n'] "<br>\n" (escapePasses (strip block))))

/-- **Markup** of a text at once is its markup pass by pass. -/
theorem markup_eq_passes (t : Text) : t.markup = markupPasses t := by
  have hparagraph : ∀ block : List Text, paragraph block
      = inParagraph (replaceAll [.char '\n'] "<br>\n" (escapePasses (shown block))) := by
    intro block
    rw [paragraph_eq_body, body, replaceAll_singleton, ← escape_eq_passes]
  have hpieces : t.markup = [Glyph.char '\n'].intercalate ((pieces (strip (unifyPasses t))).map fun block =>
      inParagraph (replaceAll [.char '\n'] "<br>\n" (escapePasses block))) := by
    rw [pieces_strip, ← unifyBreaks_eq_passes, markup, pieces, List.map_map]
    exact congrArg _ (List.map_congr_left fun block _ => hparagraph block)
  rw [hpieces, markupPasses]
  split
  · next hnil => rw [hnil]; rfl
  · next hne =>
    have hsplit := splitGaps_joined (written_strip hne)
    rw [dropWhile_feedLines_strip hne, joined, feedLines, intercalate_splitOn] at hsplit
    rw [hsplit, pieces, feedLines, List.map_map, List.map_map]
    rfl

end Markup

end RecordStore.Text
