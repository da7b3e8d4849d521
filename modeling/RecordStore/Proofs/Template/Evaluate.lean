import RecordStore.Proofs.Template.Scan

/-!
# RecordStore.Proofs.Template.Evaluate

What a template means, as a function of its tree (`evaluate`), and which trees are the tree of their
text (`proper`): no text opens a tag, and no block lies in another one of its form.  Of these the passes
of the renderer can follow some in every context (`supported`): an `each` may hold what an `if` may hold
and the position of the item, an `if` what an `unless` may hold, and that only texts and values.

The position of an item is put into the text of a body before the body is rendered.  On trees this is
`numbered`: the text of a numbered body is the text with the position put in (`putIndex_print`), and
it means the same (`evaluate_numbered`).
-/

namespace RecordStore.Template

/-! ## Meaning -/

/-- Texts that may fail to be there, one after the other. -/
def joined : List (Except Failure Text) → Except Failure Text
  | [] => .ok []
  | x :: xs => do return (← x) ++ (← joined xs)

theorem joined_append (xs ys : List (Except Failure Text)) :
    joined (xs ++ ys) = do return (← joined xs) ++ (← joined ys) := by
  induction xs with
  | nil =>
      rw [List.nil_append, joined]
      cases joined ys <;> rfl
  | cons x xs ih =>
      rw [List.cons_append, joined, ih, joined]
      cases x with
      | error e => rfl
      | ok s =>
          cases joined xs with
          | error e => rfl
          | ok t =>
              cases joined ys with
              | error e => rfl
              | ok u => exact congrArg Except.ok (List.append_assoc s t u).symm

theorem joined_singleton (x : Except Failure Text) : joined [x] = x := by
  cases x with
  | error e => rfl
  | ok t => exact congrArg Except.ok (List.append_nil t)

mutual

/-- The text that a part stands for, in a context and at a position of an `each`. -/
def Part.evaluate (ctx : Context) (index : Text) : Part → Except Failure Text
  | .text t => .ok t
  | .value path => (valueText (resolve ctx path)).map Text.escape
  | .raw path => valueText (resolve ctx path)
  | .index => .ok index
  | .block .each path body =>
    match resolve ctx path with
    | .list items => joined (items.mapIdx fun i item =>
        evaluate (itemContext ctx item i) (Text.ofNat i) body)
    | _ => .ok []
  | .block .ifHolds path body =>
    if (resolve ctx path).truthy then evaluate ctx index body else .ok []
  | .block .unlessHolds path body =>
    if (resolve ctx path).truthy then .ok [] else evaluate ctx index body

/-- The text that a template stands for. -/
def evaluate (ctx : Context) (index : Text) : List Part → Except Failure Text
  | [] => .ok []
  | p :: ps => do return (← p.evaluate ctx index) ++ (← evaluate ctx index ps)

end

/-! ## Templates that are supported -/

/-- A glyph of a text that stands for itself: no brace that could open a tag, and no end of a mark. -/
def isPlainGlyph (g : Glyph) : Bool := g ≠ .char '{' && g ≠ markEnd

/-- How much the body of a form may hold: blocks of the forms of lower rank. -/
def BlockForm.rank : BlockForm → Nat
  | each => 3
  | ifHolds => 2
  | unlessHolds => 1

mutual

/-- Whether a part holds only blocks up to a rank, and in each of them only blocks of lower rank; the
position of an item may stand where there is one. -/
def Part.supported (rank : Nat) (inEach : Bool) : Part → Bool
  | .text t => t.all isPlainGlyph
  | .value path => isName path
  | .raw path => isName path
  | .index => inEach
  | .block form path body =>
    form.rank ≤ rank && isPath path && supported (form.rank - 1) (inEach || form = .each) body

/-- Whether all parts of a template are supported. -/
def supported (rank : Nat) (inEach : Bool) : List Part → Bool
  | [] => true
  | p :: ps => p.supported rank inEach && supported rank inEach ps

end

/-- Without one form, which does not stand in its own bodies. -/
def without (form : BlockForm) (allowed : BlockForm → Bool) (form' : BlockForm) : Bool :=
  allowed form' && form' ≠ form

mutual

/-- Whether a part is told by its text: no text in it opens a tag, and no block lies in another one of its
form.  Its blocks are of allowed forms, and the position of an item may stand where there is one. -/
def Part.proper (allowed : BlockForm → Bool) (inEach : Bool) : Part → Bool
  | .text t => t.all (· ≠ .char '{')
  | .value path => isName path
  | .raw path => isName path
  | .index => inEach
  | .block form path body =>
    allowed form && isPath path && proper (without form allowed) (inEach || form = .each) body

/-- Whether all parts of a template are told by their text. -/
def proper (allowed : BlockForm → Bool) (inEach : Bool) : List Part → Bool
  | [] => true
  | p :: ps => p.proper allowed inEach && proper allowed inEach ps

end

section Proper

variable {allowed allowed' : BlockForm → Bool} {inEach : Bool} {form : BlockForm} {path : Text}
  {p : Part} {ps body : List Part}

theorem without_iff {form' : BlockForm} :
    without form allowed form' = true ↔ allowed form' = true ∧ form' ≠ form := by
  rw [without, Bool.and_eq_true, decide_eq_true_eq]

theorem without_self : without form allowed form = false := by simp [without]

theorem without_eq_false {form' : BlockForm} (h : allowed form' = false) :
    without form allowed form' = false := by simp [without, h]

theorem Part.proper_block_iff : (Part.block form path body).proper allowed inEach = true ↔
    allowed form = true ∧ isPath path = true
      ∧ Template.proper (without form allowed) (inEach || form = .each) body = true := by
  simp only [Part.proper, Bool.and_eq_true, and_assoc]

theorem proper_cons_iff : proper allowed inEach (p :: ps) = true ↔
    p.proper allowed inEach = true ∧ proper allowed inEach ps = true := by
  rw [proper, Bool.and_eq_true]

mutual

theorem Part.proper_mono : ∀ {p : Part} {allowed allowed' : BlockForm → Bool} {inEach : Bool},
    (∀ form, allowed form = true → allowed' form = true) → p.proper allowed inEach = true →
    p.proper allowed' inEach = true
  | .text _, _, _, _, _, hp => hp
  | .value _, _, _, _, _, hp => hp
  | .raw _, _, _, _, _, hp => hp
  | .index, _, _, _, _, hp => hp
  | .block form path body, _, _, _, h, hp => by
      obtain ⟨hform, hpath, hbody⟩ := Part.proper_block_iff.1 hp
      refine Part.proper_block_iff.2 ⟨h form hform, hpath, Template.proper_mono (fun form' hf => ?_) hbody⟩
      rw [without_iff] at hf ⊢
      exact ⟨h form' hf.1, hf.2⟩

/-- More forms may be allowed. -/
theorem proper_mono : ∀ {ps : List Part} {allowed allowed' : BlockForm → Bool} {inEach : Bool},
    (∀ form, allowed form = true → allowed' form = true) → proper allowed inEach ps = true →
    proper allowed' inEach ps = true
  | [], _, _, _, _, _ => rfl
  | p :: ps, _, _, _, h, hps => by
      obtain ⟨hp, hps⟩ := proper_cons_iff.1 hps
      exact proper_cons_iff.2 ⟨p.proper_mono h hp, proper_mono h hps⟩

end

theorem all_ne_of_isPlainGlyph {t : Text} (h : t.all isPlainGlyph = true) :
    t.all (· ≠ .char '{') = true := by
  rw [List.all_eq_true] at h ⊢
  exact fun g hg => (Bool.and_eq_true_iff.1 (h g hg)).1

mutual

theorem Part.proper_of_supported : ∀ {p : Part} {allowed : BlockForm → Bool} {rank : Nat} {inEach : Bool},
    (∀ form, form.rank ≤ rank → allowed form = true) → p.supported rank inEach = true →
    p.proper allowed inEach = true
  | .text _, _, _, _, _, hp => all_ne_of_isPlainGlyph hp
  | .value _, _, _, _, _, hp => hp
  | .raw _, _, _, _, _, hp => hp
  | .index, _, _, _, _, hp => hp
  | .block form path body, allowed, rank, _, h, hp => by
      simp only [Part.supported, Bool.and_eq_true, decide_eq_true_eq] at hp
      obtain ⟨⟨hrank, hpath⟩, hbody⟩ := hp
      refine Part.proper_block_iff.2
        ⟨h form hrank, hpath, Template.proper_of_supported (fun form' hf => ?_) hbody⟩
      have hpos : form.rank - 1 < form.rank := by cases form <;> decide
      have hne : form' ≠ form := by
        rintro rfl
        omega
      exact without_iff.2 ⟨h form' (by omega), hne⟩

/-- A supported template is told by its text. -/
theorem proper_of_supported : ∀ {ps : List Part} {allowed : BlockForm → Bool} {rank : Nat} {inEach : Bool},
    (∀ form, form.rank ≤ rank → allowed form = true) → supported rank inEach ps = true →
    proper allowed inEach ps = true
  | [], _, _, _, _, _ => rfl
  | p :: ps, _, _, _, h, hps => by
      rw [supported, Bool.and_eq_true] at hps
      exact proper_cons_iff.2 ⟨p.proper_of_supported h hps.1, proper_of_supported h hps.2⟩

end

end Proper

/-! ## Numbered bodies -/

mutual

/-- A part with the position of an item in its places. -/
def Part.numbered (n : Nat) : Part → Part
  | .text t => .text t
  | .value path => .value path
  | .raw path => .raw path
  | .index => .text (Text.ofNat n)
  | .block form path body => .block form path (numbered n body)

/-- A body with the position of an item in its places. -/
def numbered (n : Nat) : List Part → List Part
  | [] => []
  | p :: ps => p.numbered n :: numbered n ps

end

/-! ## Failures -/

/-- A text that fails to be there only because an integer is too long. -/
def FailsLong (x : Except Failure Text) : Prop := ∀ e, x = .error e → e = .longInteger

theorem FailsLong.ok (t : Text) : FailsLong (.ok t) := nofun

theorem FailsLong.map {x : Except Failure Text} (f : Text → Text) (hx : FailsLong x) :
    FailsLong (x.map f) := by
  intro e h
  cases x with
  | error g =>
      obtain rfl : g = e := Except.error.inj h
      exact hx g rfl
  | ok t => cases h

theorem FailsLong.append {x y : Except Failure Text} (hx : FailsLong x) (hy : FailsLong y) :
    FailsLong (do return (← x) ++ (← y)) := by
  intro e h
  cases x with
  | error f => exact hx e h
  | ok s =>
      cases y with
      | error f => exact hy e h
      | ok t => cases h

theorem FailsLong.joined {xs : List (Except Failure Text)} (h : ∀ x ∈ xs, FailsLong x) :
    FailsLong (joined xs) := by
  induction xs with
  | nil => exact .ok []
  | cons x xs ih =>
      exact (h x List.mem_cons_self).append (ih fun y hy => h y (List.mem_cons_of_mem _ hy))

theorem failsLong_valueText (v : Value) : FailsLong (valueText v) := by
  intro e h
  unfold valueText at h
  split at h
  · cases h
  · cases h
    rfl

mutual

theorem Part.failsLong_evaluate (ctx : Context) (index : Text) : ∀ p : Part,
    FailsLong (p.evaluate ctx index)
  | .text t => .ok t
  | .value path => (failsLong_valueText _).map Text.escape
  | .raw path => failsLong_valueText _
  | .index => .ok index
  | .block .each path body => by
      rw [Part.evaluate]
      split
      · refine .joined fun x hx => ?_
        obtain ⟨i, hi, rfl⟩ := List.mem_mapIdx.1 hx
        exact failsLong_evaluate _ _ body
      · exact .ok []
  | .block .ifHolds path body => by
      rw [Part.evaluate]
      split
      · exact failsLong_evaluate ctx index body
      · exact .ok []
  | .block .unlessHolds path body => by
      rw [Part.evaluate]
      split
      · exact .ok []
      · exact failsLong_evaluate ctx index body

/-- Evaluation fails only on integers that are too long. -/
theorem failsLong_evaluate (ctx : Context) (index : Text) : ∀ ps : List Part,
    FailsLong (evaluate ctx index ps)
  | [] => .ok []
  | p :: ps => (p.failsLong_evaluate ctx index).append (failsLong_evaluate ctx index ps)

end

/-! ## Tags in printed templates -/

section Tags

variable {sign : Glyph} {word path : Text} {form : BlockForm} {allowed : BlockForm → Bool}

theorem not_mem_of_isPlainGlyph {t : Text} (h : t.all isPlainGlyph = true) :
    .char '{' ∉ t ∧ markEnd ∉ t := by
  rw [List.all_eq_true] at h
  constructor
  · intro hmem
    cases h _ hmem
  · intro hmem
    cases h _ hmem

theorem not_mem_of_path (h : ∀ g ∈ path, isPathGlyph g = true) : Glyph.char '{' ∉ path := by
  intro hmem
  exact (ne_of_isPathGlyph (h _ hmem)).1 rfl

theorem all_ne_iff {t : Text} : t.all (· ≠ .char '{') = true ↔ .char '{' ∉ t := by
  rw [List.all_eq_true]
  refine ⟨fun h hmem => of_decide_eq_true (h _ hmem) rfl, fun h g hg => decide_eq_true ?_⟩
  rintro rfl
  exact h hg

theorem skips_text {tag t : Text} (h : t.all (· ≠ .char '{') = true) :
    Skips (Text.dropPrefix? (opening ++ tag)) t :=
  skips_of_not_mem _ (fun _ ht => dropPrefix?_eq_none ht) (all_ne_iff.1 h)

theorem skips_value (hsign : isNameStart sign = false) (h : isName path = true) :
    Skips (Text.dropPrefix? (opening ++ sign :: word)) (Part.value path).print := by
  cases path with
  | nil => cases h
  | cons g path =>
      rw [isName, Bool.and_eq_true, List.all_eq_true] at h
      have hne : sign ≠ g := by
        rintro rfl
        cases hsign.symm.trans h.1
      refine skips_opening _ (ne_of_isNameStart h.1).1 ?_ fun rest => if_neg hne
      exact List.not_mem_append (not_mem_of_path h.2) (by decide)

theorem skips_raw (hsign : isNameStart sign = false) (hbrace : sign ≠ .char '{')
    (h : isName path = true) :
    Skips (Text.dropPrefix? (opening ++ sign :: word)) (Part.raw path).print := by
  have hvalue : Skips (Text.dropPrefix? (opening ++ sign :: word)) (Part.value path).print :=
    skips_value hsign h
  have hlast : Skips (Text.dropPrefix? (opening ++ sign :: word)) [.char '}'] :=
    skips_of_not_mem _ (fun _ ht => dropPrefix?_eq_none ht) (by decide)
  have hinner : Skips (Text.dropPrefix? (opening ++ sign :: word)) (.char '{' :: (opening ++ path ++ closing)) :=
    ⟨fun rest => if_neg hbrace, hvalue⟩
  exact hinner.append hlast

theorem skips_index (hindex : sign ≠ .char '@') :
    Skips (Text.dropPrefix? (opening ++ sign :: word)) indexTag :=
  skips_opening _ (g := .char '@') (s := "index" ++ closing) (by decide) (by decide) fun _ => if_neg hindex

theorem skips_openTag (hpath : isPath path = true)
    (h : ∀ rest, Text.dropPrefix? (sign :: word) (.char '#' :: (form.word ++ rest)) = none) :
    Skips (Text.dropPrefix? (opening ++ sign :: word)) (form.openTag ++ [.char ' '] ++ path ++ closing) := by
  have hword : Glyph.char '{' ∉ form.word := by cases form <;> decide
  have hglyphs := not_mem_of_path (isPathGlyph_of_isPath hpath).2
  have hs : Glyph.char '{' ∉ form.word ++ ([.char ' '] ++ (path ++ closing)) :=
    List.not_mem_append hword (List.not_mem_append (by decide) (List.not_mem_append hglyphs (by decide)))
  have hskips := skips_opening (sign :: word) (g := .char '#') (by decide) hs fun rest => by
    rw [List.cons_append, List.append_assoc]
    exact h _
  simpa [BlockForm.openTag] using hskips

theorem skips_closeTag
    (h : ∀ rest, Text.dropPrefix? (sign :: word) (.char '/' :: (form.word ++ rest)) = none) :
    Skips (Text.dropPrefix? (opening ++ sign :: word)) form.closeTag := by
  have hs : Glyph.char '{' ∉ form.word ++ closing := by cases form <;> decide
  have hskips := skips_opening (sign :: word) (g := .char '/') (by decide) hs fun rest => by
    rw [List.cons_append, List.append_assoc]
    exact h _
  simpa [BlockForm.closeTag] using hskips

/-- A tag that is none of those in templates with blocks of allowed forms. -/
structure Foreign (sign : Glyph) (word : Text) (allowed : BlockForm → Bool) : Prop where
  apart : isNameStart sign = false ∧ sign ≠ .char '{' ∧ sign ≠ .char '@'
  opens : ∀ form, allowed form = true →
    ∀ rest, Text.dropPrefix? (sign :: word) (.char '#' :: (form.word ++ rest)) = none
  closes : ∀ form, allowed form = true →
    ∀ rest, Text.dropPrefix? (sign :: word) (.char '/' :: (form.word ++ rest)) = none

theorem Foreign.without (h : Foreign sign word allowed) (form : BlockForm) :
    Foreign sign word (without form allowed) :=
  ⟨h.apart, fun form' hf => h.opens form' (without_iff.1 hf).1,
    fun form' hf => h.closes form' (without_iff.1 hf).1⟩

mutual

theorem Part.skips_print : ∀ {p : Part} {allowed : BlockForm → Bool} {inEach : Bool},
    Foreign sign word allowed → p.proper allowed inEach = true →
    Skips (Text.dropPrefix? (opening ++ sign :: word)) p.print
  | .text _, _, _, _, hp => skips_text hp
  | .value _, _, _, h, hp => skips_value h.apart.1 hp
  | .raw _, _, _, h, hp => skips_raw h.apart.1 h.apart.2.1 hp
  | .index, _, _, h, _ => skips_index h.apart.2.2
  | .block form path body, _, _, h, hp => by
      obtain ⟨hform, hpath, hbody⟩ := Part.proper_block_iff.1 hp
      exact ((skips_openTag hpath (h.opens form hform)).append
        (Template.skips_print (h.without form) hbody)).append (skips_closeTag (h.closes form hform))

/-- A foreign tag does not occur in a printed template. -/
theorem skips_print : ∀ {ps : List Part} {allowed : BlockForm → Bool} {inEach : Bool},
    Foreign sign word allowed → proper allowed inEach ps = true →
    Skips (Text.dropPrefix? (opening ++ sign :: word)) (print ps)
  | [], _, _, _, _ => trivial
  | p :: ps, _, _, h, hps => by
      obtain ⟨hp, hps⟩ := proper_cons_iff.1 hps
      exact (p.skips_print h hp).append (skips_print h hps)

end

theorem dropPrefix?_word {form' : BlockForm} (h : form' ≠ form) (rest : Text) :
    Text.dropPrefix? form.word (form'.word ++ rest) = none
      ∧ Text.dropPrefix? (form.word ++ closing) (form'.word ++ rest) = none := by
  cases form <;> cases form' <;> first | exact ⟨rfl, rfl⟩ | exact absurd rfl h

/-- The tags of a form are none of those in templates without blocks of the form. -/
theorem foreign_openTag (h : allowed form = false) : Foreign (.char '#') form.word allowed := by
  refine ⟨by decide, fun form' hf rest => ?_, fun form' _ rest => rfl⟩
  have hne : form' ≠ form := by
    rintro rfl
    cases h.symm.trans hf
  exact (dropPrefix?_word hne rest).1

theorem foreign_closeTag (h : allowed form = false) :
    Foreign (.char '/') (form.word ++ closing) allowed := by
  refine ⟨by decide, fun form' _ rest => rfl, fun form' hf rest => ?_⟩
  have hne : form' ≠ form := by
    rintro rfl
    cases h.symm.trans hf
  exact (dropPrefix?_word hne rest).2

end Tags

/-! ## Positions of items -/

section Index

variable {n : Nat} {s t rest : Text}

theorem putIndex_append (hs : Skips (Text.dropPrefix? indexTag) s) (rest : Text) :
    putIndex n (s ++ rest) = s ++ putIndex n rest := by
  have hskips : Skips (fun t => (Text.dropPrefix? indexTag t).map ((), ·)) s :=
    hs.imp fun t (ht : Text.dropPrefix? indexTag t = none) => by rw [ht, Option.map_none]
  rw [putIndex, putIndex, scan_append hskips, List.flatMap_append, List.flatMap_map]
  simp

theorem putIndex_indexTag (rest : Text) : putIndex n (indexTag ++ rest) = Text.ofNat n ++ putIndex n rest := by
  have hfound : (Text.dropPrefix? indexTag (indexTag ++ rest)).map (Prod.mk ()) = some ((), rest) := by
    rw [dropPrefix?_append, Option.map_some]
  have hlt : rest.length < (indexTag ++ rest).length := by
    have htag : 0 < indexTag.length := by decide
    rw [List.length_append]
    omega
  rw [putIndex, scan_found hfound hlt, List.flatMap_cons, putIndex]

mutual

theorem Part.putIndex_print : ∀ {p : Part} {allowed : BlockForm → Bool} {inEach : Bool},
    p.proper allowed inEach = true → ∀ rest : Text,
    putIndex n (p.print ++ rest) = (p.numbered n).print ++ putIndex n rest
  | .text _, _, _, hp, rest => putIndex_append (skips_text hp) rest
  | .value _, _, _, hp, rest => putIndex_append (skips_value (by decide) hp) rest
  | .raw _, _, _, hp, rest => putIndex_append (skips_raw (by decide) (by decide) hp) rest
  | .index, _, _, _, rest => putIndex_indexTag rest
  | .block form path body, _, _, hp, rest => by
      obtain ⟨-, hpath, hbody⟩ := Part.proper_block_iff.1 hp
      have hopen : Skips (Text.dropPrefix? (opening ++ .char '@' :: (Text.ofString "index" ++ closing)))
          (form.openTag ++ [.char ' '] ++ path ++ closing) := skips_openTag hpath fun _ => rfl
      have hclose : Skips (Text.dropPrefix? (opening ++ .char '@' :: (Text.ofString "index" ++ closing)))
          form.closeTag := skips_closeTag fun _ => rfl
      have hinner := Template.putIndex_print hbody (form.closeTag ++ rest)
      rw [Part.print, Part.numbered, Part.print, List.append_assoc, List.append_assoc,
        putIndex_append hopen, hinner, putIndex_append hclose]
      simp only [List.append_assoc]

/-- Putting the position of an item into the text of a body is numbering the body. -/
theorem putIndex_print : ∀ {ps : List Part} {allowed : BlockForm → Bool} {inEach : Bool},
    proper allowed inEach ps = true → ∀ rest : Text,
    putIndex n (print ps ++ rest) = print (numbered n ps) ++ putIndex n rest
  | [], _, _, _, _ => rfl
  | p :: ps, _, _, hps, rest => by
      obtain ⟨hp, hps⟩ := proper_cons_iff.1 hps
      rw [print, numbered, print, List.append_assoc, p.putIndex_print hp, putIndex_print hps,
        List.append_assoc]

end

mutual

theorem Part.evaluate_numbered {ctx : Context} {index : Text} : ∀ {p : Part} {allowed : BlockForm → Bool}
    {inEach : Bool}, allowed .each = false → p.proper allowed inEach = true →
    (p.numbered n).evaluate ctx index = p.evaluate ctx (Text.ofNat n)
  | .text _, _, _, _, _ => rfl
  | .value _, _, _, _, _ => rfl
  | .raw _, _, _, _, _ => rfl
  | .index, _, _, _, _ => rfl
  | .block form path body, _, _, heach, hp => by
      obtain ⟨hform, -, hbody⟩ := Part.proper_block_iff.1 hp
      have hinner : evaluate ctx index (numbered n body) = evaluate ctx (Text.ofNat n) body :=
        Template.evaluate_numbered (without_eq_false heach) hbody
      cases form with
      | each => cases heach.symm.trans hform
      | ifHolds => rw [Part.numbered, Part.evaluate, Part.evaluate, hinner]
      | unlessHolds => rw [Part.numbered, Part.evaluate, Part.evaluate, hinner]

/-- A numbered body means what the body means at the position. -/
theorem evaluate_numbered {ctx : Context} {index : Text} : ∀ {ps : List Part} {allowed : BlockForm → Bool}
    {inEach : Bool}, allowed .each = false → proper allowed inEach ps = true →
    evaluate ctx index (numbered n ps) = evaluate ctx (Text.ofNat n) ps
  | [], _, _, _, _ => rfl
  | p :: ps, _, _, heach, hps => by
      obtain ⟨hp, hps⟩ := proper_cons_iff.1 hps
      rw [numbered, evaluate, evaluate, p.evaluate_numbered heach hp, evaluate_numbered heach hps]

end

theorem isPlainGlyph_of_mem_ofNat {g : Glyph} (h : g ∈ Text.ofNat n) : isPlainGlyph g = true := by
  obtain ⟨c, hc, rfl⟩ := List.mem_map.1 h
  have hdigit : c.isDigit = true := Nat.isDigit_of_mem_toDigits (by decide) (by decide) hc
  simp only [isPlainGlyph, markEnd, Bool.and_eq_true, decide_eq_true_eq, ne_eq, Glyph.char.injEq]
  constructor
  · rintro rfl
    cases hdigit
  · rintro rfl
    cases hdigit

mutual

theorem Part.proper_numbered : ∀ {p : Part} {allowed : BlockForm → Bool} {inEach : Bool},
    allowed .each = false → p.proper allowed inEach = true → (p.numbered n).proper allowed false = true
  | .text _, _, _, _, hp => hp
  | .value _, _, _, _, hp => hp
  | .raw _, _, _, _, hp => hp
  | .index, _, _, _, _ => all_ne_of_isPlainGlyph (List.all_eq_true.2 fun _ hg => isPlainGlyph_of_mem_ofNat hg)
  | .block form path body, allowed, _, heach, hp => by
      obtain ⟨hform, hpath, hbody⟩ := Part.proper_block_iff.1 hp
      have hinner := Template.proper_numbered (without_eq_false heach) hbody
      have hne : decide (form = .each) = false := by
        refine decide_eq_false ?_
        rintro rfl
        cases heach.symm.trans hform
      exact Part.proper_block_iff.2 ⟨hform, hpath, by rwa [hne]⟩

/-- A numbered body needs no position any more. -/
theorem proper_numbered : ∀ {ps : List Part} {allowed : BlockForm → Bool} {inEach : Bool},
    allowed .each = false → proper allowed inEach ps = true → proper allowed false (numbered n ps) = true
  | [], _, _, _, _ => rfl
  | p :: ps, _, _, heach, hps => by
      obtain ⟨hp, hps⟩ := proper_cons_iff.1 hps
      exact proper_cons_iff.2 ⟨p.proper_numbered heach hp, proper_numbered heach hps⟩

end

end Index

end RecordStore.Template
