import RecordStore.Proofs.Template.Order
import RecordStore.Proofs.Template.Passes

/-!
# RecordStore.Proofs.Template.Blocks

The pass for the blocks of one form.  A block is found with its own closing tag, because no block of its
form lies in it, and is set aside as what it means, where the renderer of bodies is right
(`found_block`).

The pass also goes through the blocks that are left for later passes.  Of their bodies it leaves bodies
that are in order and mean the same (`leftover`), so that it leaves pieces with the meaning of all
(`leaves_blocks`).
-/

namespace RecordStore.Template

/-! ## Counting braces -/

section Count

variable {n : Nat} {form : BlockForm} {path : Text} {body : List Part}

theorem count_ofNat (n : Nat) : (Text.ofNat n).count (.char '{') = 0 := by
  refine List.count_eq_zero.2 fun hmem => ?_
  cases isPlainGlyph_of_mem_ofNat hmem

mutual

theorem Part.count_numbered : ∀ p : Part,
    (p.numbered n).print.count (.char '{') ≤ p.print.count (.char '{')
  | .text _ => Nat.le_refl _
  | .value _ => Nat.le_refl _
  | .raw _ => Nat.le_refl _
  | .index => by
      rw [Part.numbered, Part.print, count_ofNat]
      exact Nat.zero_le _
  | .block form path body => by
      have hbody := Template.count_numbered body
      simp only [Part.numbered, Part.print, List.count_append]
      omega

/-- Numbering a body takes braces away and adds none. -/
theorem count_numbered : ∀ ps : List Part,
    (print (numbered n ps)).count (.char '{') ≤ (print ps).count (.char '{')
  | [] => Nat.le_refl _
  | p :: ps => by
      have hp := p.count_numbered
      have hps := count_numbered ps
      simp only [numbered, print, List.count_append]
      omega

end

/-- The body of a block has fewer braces than the block. -/
theorem count_body_lt :
    (print body).count (.char '{') < (Part.block form path body).print.count (.char '{') := by
  have htag : 2 ≤ form.openTag.count (.char '{') := by cases form <;> decide
  simp only [Part.print, List.count_append]
  omega

theorem print_block_pos : 0 < (Part.block form path body).print.length :=
  Nat.lt_of_lt_of_le (Nat.zero_lt_of_lt count_body_lt) List.count_le_length

end Count

/-! ## Finding blocks -/

section Find

variable {inner : Context → Text → Except Failure Text} {ctx : Context} {index : Text} {n rank : Nat}
  {form : BlockForm} {path : Text} {body : List Part} {allowed : BlockForm → Bool} {inEach : Bool}

/-- A renderer is right on templates in order with fewer opening braces than a number. -/
def RightBelow (n : Nat) (inner : Context → Text → Except Failure Text) : Prop :=
  ∀ ctx index ps, proper (fun _ => true) false ps = true → inOrder 0 ctx index ps = true →
    (print ps).count (.char '{') < n → inner ctx (print ps) = evaluate ctx index ps

/-- What a block of a form becomes. -/
def replaceBlock (inner : Context → Text → Except Failure Text) (ctx : Context) :
    BlockForm → Block → Pass Text
  | .each => replaceEach inner ctx
  | .ifHolds => replaceIf true inner ctx
  | .unlessHolds => replaceIf false inner ctx

/-- A block is found where it is printed. -/
theorem block?_block (h : (Part.block form path body).proper allowed inEach = true) (rest : Text) :
    block? form ((Part.block form path body).print ++ rest) = some (⟨path, print body⟩, rest) := by
  obtain ⟨-, hpath, hbody⟩ := Part.proper_block_iff.1 h
  have hskips : Skips (Text.dropPrefix? form.closeTag) (print body) := by
    have hforeign := skips_print (foreign_closeTag without_self) hbody
    simpa [BlockForm.closeTag] using hforeign
  have hfind := block?_print hpath hskips rest
  simpa [Part.print] using hfind

theorem block?_eq_none {t : Text} (h : Text.dropPrefix? form.openTag t = none) : block? form t = none := by
  unfold block?
  rw [h]
  rfl

/-- A block that is not rendered becomes nothing. -/
theorem replaceBlock_of_not_shows {t : Text} (h : form.shows ctx path = false) :
    replaceBlock inner ctx form ⟨path, t⟩ = pure [] := by
  cases form with
  | each =>
      rw [BlockForm.shows] at h
      rw [replaceBlock, replaceEach]
      cases hv : resolve ctx path with
      | list items => rw [hv] at h; cases h
      | _ => rfl
  | ifHolds =>
      have hfalse : ¬ (resolve ctx path).truthy = true := by rw [BlockForm.shows] at h; simp [h]
      exact if_neg hfalse
  | unlessHolds =>
      have htrue : ¬ (resolve ctx path).truthy = false := by rw [BlockForm.shows] at h; simpa using h
      exact if_neg htrue

/-- A conditional block that is rendered becomes what its body is rendered to. -/
theorem replaceBlock_of_conditional {t : Text} (hform : form ≠ .each) (h : form.shows ctx path = true) :
    replaceBlock inner ctx form ⟨path, t⟩ = StateT.lift (inner ctx t) >>= setAside := by
  cases form with
  | each => exact absurd rfl hform
  | ifHolds =>
      have htrue : (resolve ctx path).truthy = true := h
      rw [replaceBlock, replaceIf, if_pos htrue]
      rfl
  | unlessHolds =>
      have hfalse : (resolve ctx path).truthy = false := by rw [BlockForm.shows] at h; simpa using h
      rw [replaceBlock, replaceIf, if_pos hfalse]
      rfl

/-- The items of an `each` are rendered as what its body means for each of them. -/
theorem eachItem_print (hinner : RightBelow n inner) (heach : allowed .each = false)
    (hbody : proper allowed true body = true) (hn : (print body).count (.char '{') < n)
    {items : List Value} {i : Nat} (horder : ∀ j item, items[j]? = some item →
      inOrder 0 (itemContext ctx item (i + j)) (Text.ofNat (i + j)) body = true) :
    eachItem inner ctx (print body) i items
      = joined (items.mapIdx fun j item =>
          evaluate (itemContext ctx item (i + j)) (Text.ofNat (i + j)) body) := by
  induction items generalizing i with
  | nil => rfl
  | cons item items ih =>
      have hnumbered : putIndex i (print body) = print (numbered i body) := by
        have hput := putIndex_print (n := i) hbody []
        simpa [putIndex, scan] using hput
      have hcount := Nat.lt_of_le_of_lt (count_numbered (n := i) body) hn
      have hproper : proper (fun _ => true) false (numbered i body) = true :=
        proper_mono (fun _ _ => rfl) (proper_numbered heach hbody)
      have hitem : inner (itemContext ctx item i) (putIndex i (print body))
          = evaluate (itemContext ctx item i) (Text.ofNat i) body := by
        have hnumber : inOrder 0 (itemContext ctx item i) [] (numbered i body) = true :=
          inOrder_numbered heach hbody (horder 0 item rfl)
        rw [hnumbered, hinner _ [] _ hproper hnumber hcount]
        exact evaluate_numbered heach hbody
      have ih := @ih (i + 1) fun j item' hj => by
        have h := horder (j + 1) item' (by simpa using hj)
        rwa [show i + (j + 1) = i + 1 + j by omega] at h
      rw [eachItem, hitem, ih, List.mapIdx_cons, joined]
      simp only [Nat.add_zero, Nat.add_assoc, Nat.add_comm 1]

/-- A block that is rendered is set aside as what it means. -/
theorem replaceBlock_of_shows (hinner : RightBelow n inner) (hn : (print body).count (.char '{') < n)
    (hp : (Part.block form path body).proper allowed false = true) (h : form.shows ctx path = true)
    (horder : ∀ s ∈ form.settings ctx index path, inOrder 0 s.1 s.2 body = true) :
    replaceBlock inner ctx form ⟨path, print body⟩
      = StateT.lift ((Part.block form path body).evaluate ctx index) >>= setAside := by
  obtain ⟨-, -, hbody⟩ := Part.proper_block_iff.1 hp
  by_cases hform : form = .each
  · subst hform
    rw [BlockForm.shows] at h
    rw [BlockForm.settings] at horder
    rw [replaceBlock, replaceEach, Part.evaluate]
    cases hv : resolve ctx path with
    | list items =>
        rw [hv] at horder
        have hall : ∀ j item, items[j]? = some item →
            inOrder 0 (itemContext ctx item (0 + j)) (Text.ofNat (0 + j)) body = true := by
          intro j item hj
          obtain ⟨hlt, hget⟩ := List.getElem?_eq_some_iff.1 hj
          refine horder (itemContext ctx item (0 + j), Text.ofNat (0 + j)) (List.mem_mapIdx.2 ⟨j, hlt, ?_⟩)
          rw [hget, Nat.zero_add]
        have hitems := eachItem_print hinner without_self hbody hn hall
        simp only [Nat.zero_add] at hitems
        simp only [← hitems]
        rfl
    | _ => rw [hv] at h; cases h
  · rw [settings_of_shows hform h] at horder
    rw [decide_eq_false hform, Bool.or_false] at hbody
    rw [evaluate_of_shows hform h, replaceBlock_of_conditional hform h,
      hinner ctx index body (proper_mono (fun _ _ => rfl) hbody) (horder _ List.mem_cons_self) hn]

/-- A block in order is found, and set aside as what it means or taken away. -/
theorem found_block (hinner : RightBelow n inner) (hn : (print body).count (.char '{') < n)
    (hp : (Part.block form path body).proper allowed false = true) (hrank : rank < form.rank)
    (horder : (Part.block form path body).inOrder rank ctx index = true) :
    Found (block? form) (replaceBlock inner ctx form) ctx index (.block form path body)
      ⟨path, print body⟩ := by
  obtain ⟨-, hshows, -⟩ := (Part.inOrder_block_iff hrank).1 horder
  refine ⟨block?_block hp, Nat.zero_lt_of_lt count_body_lt, ?_⟩
  cases h : form.shows ctx path with
  | false => exact .inl ⟨evaluate_of_not_shows h, replaceBlock_of_not_shows h⟩
  | true => exact .inr (replaceBlock_of_shows hinner hn hp h (hshows h).1)

end Find

/-! ## Going through the other blocks -/

section Append

variable {ctx : Context} {index : Text} {allowed : BlockForm → Bool} {inEach : Bool} {p : Part}
  {ps ps' : List Part}

theorem print_append : print (ps ++ ps') = print ps ++ print ps' := by
  induction ps with
  | nil => rfl
  | cons p ps ih => rw [List.cons_append, print, ih, print, List.append_assoc]

theorem print_singleton : print [p] = p.print := List.append_nil _

theorem evaluate_eq_joined : evaluate ctx index ps = joined (ps.map (Part.evaluate ctx index)) := by
  induction ps with
  | nil => rfl
  | cons p ps ih => rw [evaluate, ih, List.map_cons, joined]

theorem evaluate_singleton : evaluate ctx index [p] = p.evaluate ctx index := by
  rw [evaluate_eq_joined]
  exact joined_singleton _

theorem evaluate_append : evaluate ctx index (ps ++ ps')
    = do return (← evaluate ctx index ps) ++ (← evaluate ctx index ps') := by
  simp only [evaluate_eq_joined, List.map_append, joined_append]

theorem proper_append_iff : proper allowed inEach (ps ++ ps') = true ↔
    proper allowed inEach ps = true ∧ proper allowed inEach ps' = true := by
  induction ps with
  | nil => simp [proper]
  | cons p ps ih => rw [List.cons_append, proper_cons_iff, ih, proper_cons_iff, and_assoc]

end Append

section Sweep

variable {form form' : BlockForm} {f : Block → Pass Text} {allowed : BlockForm → Bool} {inEach : Bool}
  {aside more : List Text} {path : Text} {ps body body' : List Part}

theorem openTag_eq : form.openTag = opening ++ .char '#' :: form.word := by simp [BlockForm.openTag]

/-- The pass for a form skips what has no block of the form. -/
theorem skips_block? (hps : proper (without form allowed) inEach ps = true) :
    Skips (block? form) (print ps) := by
  have hskips := skips_print (foreign_openTag without_self) hps
  rw [← openTag_eq] at hskips
  exact hskips.imp fun t => block?_eq_none

/-- The pass for a form goes through a block of another form. -/
theorem swept_block (hne : form' ≠ form) (hpath : isPath path = true)
    (h : Swept (block? form) f aside more (print body) (print body')) :
    Swept (block? form) f aside more (Part.block form' path body).print
      (Part.block form' path body').print := by
  have hopen : Skips (Text.dropPrefix? form.openTag) (form'.openTag ++ [.char ' '] ++ path ++ closing) := by
    rw [openTag_eq]
    exact skips_openTag hpath fun rest => (dropPrefix?_word hne rest).1
  have hclose : Skips (Text.dropPrefix? form.openTag) form'.closeTag := by
    rw [openTag_eq]
    exact skips_closeTag fun _ => rfl
  have hbody : Swept (block? form) f (aside ++ []) more (print body) (print body') := by
    rw [List.append_nil]
    exact h
  have hall := ((Swept.skip (hopen.imp fun t => block?_eq_none)).append hbody).append
    (.skip (hclose.imp fun t => block?_eq_none))
  rw [List.nil_append, List.append_nil] at hall
  simpa only [Part.print] using hall

end Sweep

/-- What the pass for a form leaves of parts: parts without blocks of the form, which are in order and take
the place of the parts. -/
structure Leftover (form : BlockForm) (f : Block → Pass Text) (allowed : BlockForm → Bool) (rank : Nat)
    (ctx : Context) (index : Text) (aside more : List Text) (ps ps' : List Part) : Prop where
  swept : Swept (block? form) f aside more (print ps) (print ps')
  proper : proper (without form allowed) false ps' = true
  order : inOrder rank ctx index ps' = true
  gone : ∀ k, (∀ p ∈ ps, p.gone k ctx = true) → ∀ p ∈ ps', p.gone k ctx = true
  means : rank = 0 → evaluate ctx index ps' = evaluate ctx index ps
  size : more.length + (print ps').count (.char '{') ≤ (print ps).count (.char '{')

namespace Leftover

variable {form form' : BlockForm} {f : Block → Pass Text} {allowed : BlockForm → Bool} {rank rank' : Nat}
  {ctx : Context} {index path : Text} {aside more more' : List Text} {p : Part}
  {ps ps' ps₁ ps₁' body body' : List Part}

/-- A part without blocks of the form stays as it is. -/
theorem keep (hp : p.proper (without form allowed) false = true) (h : p.inOrder rank ctx index = true) :
    Leftover form f allowed rank ctx index aside [] [p] [p] where
  swept := .skip (skips_block? (proper_cons_iff.2 ⟨hp, rfl⟩))
  proper := proper_cons_iff.2 ⟨hp, rfl⟩
  order := inOrder_cons_iff.2 ⟨h, rfl⟩
  gone := fun k h => h
  means := fun _ => rfl
  size := by simp

theorem append (h : Leftover form f allowed rank ctx index aside more ps ps')
    (h₁ : Leftover form f allowed rank ctx index (aside ++ more) more' ps₁ ps₁') :
    Leftover form f allowed rank ctx index aside (more ++ more') (ps ++ ps₁) (ps' ++ ps₁') where
  swept := by
    rw [print_append, print_append]
    exact h.swept.append h₁.swept
  proper := proper_append_iff.2 ⟨h.proper, h₁.proper⟩
  order := inOrder_append_iff.2 ⟨h.order, h₁.order⟩
  gone := by
    intro k hall
    rw [List.forall_mem_append] at hall ⊢
    exact ⟨h.gone k hall.1, h₁.gone k hall.2⟩
  means := fun hrank => by rw [evaluate_append, evaluate_append, h.means hrank, h₁.means hrank]
  size := by
    have hsize := h.size
    have hsize₁ := h₁.size
    simp only [print_append, List.count_append, List.length_append]
    omega

/-- A block that is left for a later pass has a body that is left, whatever the body is left for. -/
theorem block (hne : form' ≠ form) (hform : allowed form' = true) (hpath : isPath path = true)
    (h : Leftover form f (without form' allowed) rank' ctx index aside more body body')
    (horder : (Part.block form' path body').inOrder rank ctx index = true)
    (hmeans : rank = 0 → (Part.block form' path body').evaluate ctx index
      = (Part.block form' path body).evaluate ctx index) (heach : form' ≠ .each) :
    Leftover form f allowed rank ctx index aside more [.block form' path body] [.block form' path body'] where
  swept := by
    rw [print_singleton, print_singleton]
    exact swept_block hne hpath h.swept
  proper := by
    refine proper_cons_iff.2 ⟨Part.proper_block_iff.2 ⟨without_iff.2 ⟨hform, hne⟩, hpath, ?_⟩, rfl⟩
    rw [decide_eq_false heach]
    refine proper_mono (fun form₁ h₁ => ?_) h.proper
    obtain ⟨h₁, hne₁⟩ := without_iff.1 h₁
    obtain ⟨h₁, hne₁'⟩ := without_iff.1 h₁
    exact without_iff.2 ⟨without_iff.2 ⟨h₁, hne₁⟩, hne₁'⟩
  order := inOrder_cons_iff.2 ⟨horder, rfl⟩
  gone := fun k hall => by simpa [Part.gone] using hall
  means := fun hrank => by rw [evaluate_singleton, evaluate_singleton, hmeans hrank]
  size := by
    have hsize := h.size
    simp only [print_singleton, Part.print, List.count_append]
    omega

/-- A block of the form that is not rendered goes. -/
theorem drop {a : Block} (hshows : form.shows ctx path = false) (hf : f a = pure [])
    (hfind : ∀ rest, block? form ((Part.block form path body).print ++ rest) = some (a, rest)) :
    Leftover form f allowed rank ctx index aside [] [.block form path body] [] where
  swept := by
    have hrun : (f a).run aside = .ok ([], aside ++ []) := by rw [hf, List.append_nil]; rfl
    rw [print_singleton]
    exact .found hfind print_block_pos hrun
  proper := rfl
  order := rfl
  gone := by simp
  means := fun _ => by rw [evaluate_singleton, evaluate_of_not_shows hshows]; rfl
  size := Nat.zero_le _

/-- A part that is found in a body that is taken away leaves a mark at most. -/
theorem put {a : Block} {t : Text} (hrank : rank ≠ 0) (hfound : Found (block? form) f ctx index p a)
    (ht : p.evaluate ctx index = .ok t) :
    ∃ more ps', Leftover form f allowed rank ctx index aside more [p] ps' := by
  rcases hfound.swept ht aside with ⟨-, hswept⟩ | hswept
  · refine ⟨[], [], ?_, rfl, rfl, by simp, fun h => absurd h hrank, Nat.zero_le _⟩
    rwa [print_singleton]
  · have hmark : Glyph.char '{' ∉ mark aside.length := not_mem_mark
    refine ⟨[t], [.text (mark aside.length)], ?_, proper_cons_iff.2 ⟨all_ne_iff.2 hmark, rfl⟩,
      inOrder_cons_iff.2 ⟨Part.inOrder_text_iff.2 fun h => absurd h hrank, rfl⟩, ?_,
      fun h => absurd h hrank, ?_⟩
    · rwa [print_singleton, print_singleton]
    · intro k _ p hp
      rw [List.mem_singleton.1 hp]
      rfl
    · have hbraces := hfound.braces
      have hcount : (mark aside.length).count (.char '{') = 0 := List.count_eq_zero.2 hmark
      rw [print_singleton, print_singleton, Part.print, hcount]
      exact hbraces

end Leftover

/-! ## The pass -/

section Pass

variable {inner : Context → Text → Except Failure Text} {ctx : Context} {index : Text} {n : Nat}
  {form : BlockForm}

theorem rank_injective {form form' : BlockForm} (h : form.rank = form'.rank) : form = form' := by
  cases form <;> cases form' <;> first | rfl | cases h

theorem Part.gone_mono {p : Part} {rank rank' : Nat} (hle : rank ≤ rank') (h : p.gone rank ctx = true) :
    p.gone rank' ctx = true := by
  cases p with
  | block form path body =>
      rw [Part.gone, Bool.or_eq_true, decide_eq_true_eq] at h ⊢
      exact h.imp_left fun h => Nat.le_trans h hle
  | _ => rfl

/-- Of a block of the form the pass leaves a mark at most, and only where the block is taken away. -/
theorem leftover_own {allowed : BlockForm → Bool} {rank : Nat} {path : Text} {body : List Part}
    (hinner : RightBelow n inner) (aside : List Text) (hrank : rank < form.rank)
    (hp : (Part.block form path body).proper allowed false = true)
    (h : (Part.block form path body).inOrder rank ctx index = true)
    (hgone : rank = 0 → (Part.block form path body).gone (form.rank - 1) ctx = true)
    (hn : (print body).count (.char '{') < n) :
    ∃ more ps', Leftover form (replaceBlock inner ctx form) allowed rank ctx index aside more
      [.block form path body] ps' := by
  cases hshows : form.shows ctx path with
  | false => exact ⟨_, _, .drop hshows (replaceBlock_of_not_shows hshows) (block?_block hp)⟩
  | true =>
      have hpos : rank ≠ 0 := by
        intro hzero
        have hgone := hgone hzero
        have hrank' := form.rank_pos
        rw [Part.gone, hshows, Bool.not_true, Bool.or_false, decide_eq_true_eq] at hgone
        omega
      obtain ⟨t, ht⟩ := ((Part.inOrder_block_iff hrank).1 h).1 hpos
      exact Leftover.put hpos (found_block hinner hn hp hrank h) ht

section Other

variable {f : Block → Pass Text} {allowed : BlockForm → Bool} {rank : Nat} {form' : BlockForm} {path : Text}
  {aside : List Text} {body : List Part} (hlt : form'.rank < form.rank) (hform : allowed form' = true)
  (hpath : isPath path = true) (h : (Part.block form' path body).inOrder rank ctx index = true)
  (hbody : ∀ rank', rank' < form.rank → inOrder rank' ctx index body = true →
    (rank' = 0 → ∀ p ∈ body, p.gone (form.rank - 1) ctx = true) →
    ∃ more body', Leftover form f (without form' allowed) rank' ctx index aside more body body')
include hlt hform hpath h hbody

/-- A block inside one that is taken away later, by a pass before its own. -/
theorem leftover_taken (hrank : rank < form.rank) (hle : form'.rank ≤ rank) :
    ∃ more ps', Leftover form f allowed rank ctx index aside more [.block form' path body] ps' := by
  have hpos : rank ≠ 0 := Nat.ne_of_gt (Nat.lt_of_lt_of_le form'.rank_pos hle)
  rw [Part.inOrder_block_of_le hle] at h
  obtain ⟨more, body', hleft⟩ := hbody rank hrank h fun hzero => absurd hzero hpos
  refine ⟨more, _, .block (BlockForm.ne_of_rank_lt hlt) hform hpath hleft ?_ (fun hzero => absurd hzero hpos)
    (BlockForm.ne_each_of_rank_lt hlt)⟩
  rw [Part.inOrder_block_of_le hle]
  exact hleft.order

/-- A block whose own pass will render it. -/
theorem leftover_shown (hlt' : rank < form'.rank) (hshows : form'.shows ctx path = true) :
    ∃ more ps', Leftover form f allowed rank ctx index aside more [.block form' path body] ps' := by
  have heach : form' ≠ .each := BlockForm.ne_each_of_rank_lt hlt
  obtain ⟨hok, hrendered, -⟩ := (Part.inOrder_block_iff hlt').1 h
  obtain ⟨horder, hgone⟩ := hrendered hshows
  rw [settings_of_shows heach hshows] at horder
  obtain ⟨more, body', hleft⟩ := hbody 0 (Nat.zero_lt_of_lt hlt) (horder _ List.mem_cons_self)
    fun _ p hp => p.gone_mono (Nat.le_sub_one_of_lt hlt) (hgone p hp)
  have hmeans : (Part.block form' path body').evaluate ctx index
      = (Part.block form' path body).evaluate ctx index := by
    rw [evaluate_of_shows heach hshows, evaluate_of_shows heach hshows, hleft.means rfl]
  refine ⟨more, _, .block (BlockForm.ne_of_rank_lt hlt) hform hpath hleft ?_ (fun _ => hmeans) heach⟩
  refine (Part.inOrder_block_iff hlt').2 ⟨fun hpos => hmeans ▸ hok hpos, fun _ => ?_, fun hs => ?_⟩
  · rw [settings_of_shows heach hshows]
    exact ⟨fun s hs => List.mem_singleton.1 hs ▸ hleft.order, hleft.gone _ hgone⟩
  · cases hshows.symm.trans hs

/-- A block that its own pass will take away. -/
theorem leftover_hidden (hlt' : rank < form'.rank) (hshows : form'.shows ctx path = false) :
    ∃ more ps', Leftover form f allowed rank ctx index aside more [.block form' path body] ps' := by
  obtain ⟨-, -, hidle⟩ := (Part.inOrder_block_iff hlt').1 h
  obtain ⟨more, body', hleft⟩ := hbody form'.rank hlt (hidle hshows)
    fun hzero => absurd hzero (Nat.ne_of_gt form'.rank_pos)
  have hmeans : ∀ body, (Part.block form' path body).evaluate ctx index = .ok [] :=
    fun body => evaluate_of_not_shows hshows
  refine ⟨more, _, .block (BlockForm.ne_of_rank_lt hlt) hform hpath hleft ?_ (fun _ => by rw [hmeans, hmeans])
    (BlockForm.ne_each_of_rank_lt hlt)⟩
  refine (Part.inOrder_block_iff hlt').2 ⟨fun _ => ⟨_, hmeans _⟩, fun hs => ?_, fun _ => hleft.order⟩
  cases hshows.symm.trans hs

/-- Of a block for a later pass the pass leaves the block, with what it leaves of the body. -/
theorem leftover_other (hrank : rank < form.rank) :
    ∃ more ps', Leftover form f allowed rank ctx index aside more [.block form' path body] ps' := by
  by_cases hle : form'.rank ≤ rank
  · exact leftover_taken hlt hform hpath h hbody hrank hle
  · have hlt' : rank < form'.rank := Nat.lt_of_not_le hle
    cases hshows : form'.shows ctx path with
    | true => exact leftover_shown hlt hform hpath h hbody hlt' hshows
    | false => exact leftover_hidden hlt hform hpath h hbody hlt' hshows

end Other

mutual

theorem Part.leftover (hinner : RightBelow n inner) : ∀ {p : Part} {allowed : BlockForm → Bool} {rank : Nat}
    (aside : List Text), (∀ form', allowed form' = true → form'.rank ≤ form.rank) → rank < form.rank →
    p.proper allowed false = true → p.inOrder rank ctx index = true →
    (rank = 0 → p.gone (form.rank - 1) ctx = true) → p.print.count (.char '{') ≤ n →
    ∃ more ps', Leftover form (replaceBlock inner ctx form) allowed rank ctx index aside more [p] ps'
  | .text _, _, _, _, _, _, hp, h, _, _ => ⟨_, _, .keep hp h⟩
  | .value _, _, _, _, _, _, hp, h, _, _ => ⟨_, _, .keep hp h⟩
  | .raw _, _, _, _, _, _, hp, h, _, _ => ⟨_, _, .keep hp h⟩
  | .index, _, _, _, _, _, hp, _, _, _ => nomatch hp
  | .block form' path body, allowed, rank, aside, hallowed, hrank, hp, h, hgone, hn => by
      have hcount : (print body).count (.char '{') < n := Nat.lt_of_lt_of_le count_body_lt hn
      by_cases heq : form' = form
      · subst heq
        exact leftover_own hinner aside hrank hp h hgone hcount
      · obtain ⟨hform, hpath, hbody⟩ := Part.proper_block_iff.1 hp
        have hlt : form'.rank < form.rank :=
          Nat.lt_of_le_of_ne (hallowed form' hform) fun h => heq (rank_injective h)
        rw [decide_eq_false (BlockForm.ne_each_of_rank_lt hlt), Bool.or_false] at hbody
        refine leftover_other hlt hform hpath h (fun rank' hrank' h' hgone' => ?_) hrank
        exact Template.leftover hinner aside (fun form₁ h₁ => hallowed form₁ (without_iff.1 h₁).1) hrank' hbody h'
          hgone' (Nat.le_of_lt hcount)

/-- The pass for a form leaves parts that take the place of those in a body. -/
theorem leftover (hinner : RightBelow n inner) : ∀ {ps : List Part} {allowed : BlockForm → Bool} {rank : Nat}
    (aside : List Text), (∀ form', allowed form' = true → form'.rank ≤ form.rank) → rank < form.rank →
    proper allowed false ps = true → inOrder rank ctx index ps = true →
    (rank = 0 → ∀ p ∈ ps, p.gone (form.rank - 1) ctx = true) → (print ps).count (.char '{') ≤ n →
    ∃ more ps', Leftover form (replaceBlock inner ctx form) allowed rank ctx index aside more ps ps'
  | [], _, _, _, _, _, _, _, _, _ =>
      ⟨[], [], .skip trivial, rfl, rfl, fun _ h => h, fun _ => rfl, Nat.le_refl _⟩
  | p :: ps, _, _, aside, hallowed, hrank, hps, h, hgone, hn => by
      obtain ⟨hp, hps⟩ := proper_cons_iff.1 hps
      obtain ⟨h, hs⟩ := inOrder_cons_iff.1 h
      rw [print, List.count_append] at hn
      obtain ⟨more, ps₁, hfirst⟩ := p.leftover hinner aside hallowed hrank hp h
        (fun hzero => hgone hzero p List.mem_cons_self) (by omega)
      obtain ⟨more', ps₂, hrest⟩ := leftover hinner (aside ++ more) hallowed hrank hps hs
        (fun hzero q hq => hgone hzero q (List.mem_cons_of_mem _ hq)) (by omega)
      exact ⟨more ++ more', ps₁ ++ ps₂, hfirst.append hrest⟩

end

/-- A piece with blocks of allowed forms only, in order, and with a bounded number of opening braces. -/
def Piece.Within (ctx : Context) (index : Text) (allowed : BlockForm → Bool) (n : Nat) : Piece → Prop
  | .part p => p.proper allowed false = true ∧ p.inOrder 0 ctx index = true ∧ p.print.count (.char '{') ≤ n
  | .mark _ => True

/-- The parts of a template as pieces. -/
theorem within_parts {allowed : BlockForm → Bool} {ps : List Part} (hps : proper allowed false ps = true)
    (h : inOrder 0 ctx index ps = true) (hn : (print ps).count (.char '{') ≤ n) :
    ∀ h ∈ ps.map Piece.part, h.Within ctx index allowed n := by
  induction ps with
  | nil => simp
  | cons p ps ih =>
      obtain ⟨hp, hps⟩ := proper_cons_iff.1 hps
      obtain ⟨h, hs⟩ := inOrder_cons_iff.1 h
      rw [print, List.count_append] at hn
      rw [List.map_cons, List.forall_mem_cons]
      exact ⟨⟨hp, h, by omega⟩, ih hps hs (by omega)⟩

/-- A search for what begins with opening braces skips marks. -/
theorem skips_mark {β : Type} {find? : Text → Option β}
    (hfind : ∀ t, t.head? ≠ some (.char '{') → find? t = none) (k : Nat) : Skips find? (mark k) :=
  skips_of_not_mem _ hfind not_mem_mark

theorem block?_eq_none_of_head {t : Text} (h : t.head? ≠ some (.char '{')) : block? form t = none := by
  refine block?_eq_none ?_
  rw [openTag_eq]
  exact dropPrefix?_eq_none h

/-- What is left of a part that is no block of the form can take its place. -/
theorem Leftover.turned {f : Block → Pass Text} {allowed : BlockForm → Bool} {aside more : List Text}
    {p : Part} {ps' : List Part} (h : Leftover form f allowed 0 ctx index aside more [p] ps')
    (hn : p.print.count (.char '{') ≤ n) :
    Turned ctx index (Piece.Within ctx index (without form allowed) n) aside more (.part p)
      (ps'.map Piece.part) where
  kept := by
    have hsize := h.size
    rw [print_singleton] at hsize
    exact within_parts h.proper h.order (by omega)
  closed := fun k hk => by simp at hk
  means := by rw [meaning_parts, h.means rfl, evaluate_singleton, Piece.meaning]
  size := by
    have hsize := h.size
    rw [print_singleton] at hsize
    rwa [printPieces_parts]

/-- **A pass for blocks** takes the blocks of its form away. -/
theorem leaves_blocks (form : BlockForm) {allowed : BlockForm → Bool} {aside : List Text} {hs : List Piece}
    (hinner : RightBelow n inner) (hallowed : ∀ form', allowed form' = true → form'.rank ≤ form.rank)
    (hs_within : ∀ h ∈ hs, h.Within ctx index allowed n) (hc : Closed aside hs) :
    Leaves ctx index (Piece.Within ctx index (without form allowed) n) aside hs
      ((replace (replaceBlock inner ctx form) (scan (block? form) (printPieces hs))).run aside) := by
  refine leaves_replace (fun k => trivial) hc fun h hh => ?_
  have hw := hs_within h hh
  cases h with
  | mark k =>
      refine .inl fun aside hc => ⟨[], [.mark k], ?_, .keep trivial hc⟩
      have hprint : printPieces [.mark k] = mark k := List.append_nil _
      rw [hprint]
      exact .skip (skips_mark (fun t => block?_eq_none_of_head) k)
  | part p =>
      obtain ⟨hp, horder, hn⟩ := hw
      have hgo : p.gone (form.rank - 1) ctx = true → ∀ aside, ∃ more hs',
          Swept (block? form) (replaceBlock inner ctx form) aside more p.print (printPieces hs')
            ∧ Turned ctx index (Piece.Within ctx index (without form allowed) n) aside more (.part p) hs' := by
        intro hgone aside
        obtain ⟨more, ps', hleft⟩ := p.leftover hinner aside hallowed form.rank_pos hp horder (fun _ => hgone) hn
        refine ⟨more, _, ?_, hleft.turned hn⟩
        have hswept := hleft.swept
        rwa [print_singleton, ← printPieces_parts ps'] at hswept
      cases p with
      | block form' path body =>
          by_cases heq : form' = form
          · subst heq
            have hcount : (print body).count (.char '{') < n := Nat.lt_of_lt_of_le count_body_lt hn
            exact .inr ⟨_, _, rfl, found_block hinner hcount hp form'.rank_pos horder⟩
          · refine .inl fun aside _ => hgo ?_ aside
            have hle := hallowed form' (Part.proper_block_iff.1 hp).1
            have hne : form'.rank ≠ form.rank := fun h => heq (rank_injective h)
            have hrank : form'.rank ≤ form.rank - 1 := by omega
            simp [Part.gone, hrank]
      | _ => exact .inl fun aside _ => hgo rfl aside

end Pass

end RecordStore.Template
