import RecordStore.Proofs.Template.Evaluate

/-!
# RecordStore.Proofs.Template.Order

When the passes of the renderer keep out of each other's way.  A pass takes the blocks of its form
wherever they stand, also inside a block of a later pass.  What it puts there is a mark, which means
nothing when the body of the later block is rendered on its own.  It does no harm where the later block is
taken away, body and all, and nothing is put there where the inner block is taken away itself.

So it depends on the context which blocks may lie in which (`inOrder`).  Where all lie in the order of the
passes it does not (`inOrder_of_supported`).
-/

namespace RecordStore.Template

/-! ## Blocks in a context -/

namespace BlockForm

/-- Whether a block is rendered, if only for no item of an empty list. -/
def shows (ctx : Context) (path : Text) : BlockForm → Bool
  | each =>
    match resolve ctx path with
    | .list _ => true
    | _ => false
  | ifHolds => (resolve ctx path).truthy
  | unlessHolds => !(resolve ctx path).truthy

/-- The contexts in which the body of a block is rendered, each with the position there. -/
def settings (ctx : Context) (index path : Text) : BlockForm → List (Context × Text)
  | each =>
    match resolve ctx path with
    | .list items => items.mapIdx fun i item => (itemContext ctx item i, Text.ofNat i)
    | _ => []
  | ifHolds => if ifHolds.shows ctx path then [(ctx, index)] else []
  | unlessHolds => if unlessHolds.shows ctx path then [(ctx, index)] else []

end BlockForm

/-- Whether no mark is left of a part by the passes for the forms above a rank. -/
def Part.gone (rank : Nat) (ctx : Context) : Part → Bool
  | .block form path _ => form.rank ≤ rank || !form.shows ctx path
  | _ => true

mutual

/-- Whether the passes over a part keep out of each other's way.  The rank is that of the conditional
block which takes the part away, and zero where none does.

Only the passes for higher ranks see a part that is taken away.  What they render there has to have a
meaning, although it does not show.  The body of a block that is rendered must be in order itself, and no
mark may be left in it by the passes before the one for the block. -/
def Part.inOrder (rank : Nat) (ctx : Context) (index : Text) : Part → Bool
  | .text t => rank ≠ 0 || !t.contains markEnd
  | .block form path body =>
    if form.rank ≤ rank then
      inOrder rank ctx index body
    else
      (rank = 0 || ((Part.block form path body).evaluate ctx index).isOk) &&
        if form.shows ctx path then
          (form.settings ctx index path).all (fun s => inOrder 0 s.1 s.2 body)
            && body.all (Part.gone form.rank ctx)
        else
          inOrder form.rank ctx index body
  | _ => true

/-- Whether the passes over a template keep out of each other's way. -/
def inOrder (rank : Nat) (ctx : Context) (index : Text) : List Part → Bool
  | [] => true
  | p :: ps => p.inOrder rank ctx index && inOrder rank ctx index ps

end

section Blocks

variable {form : BlockForm} {ctx : Context} {index path : Text} {rank : Nat} {p : Part}
  {body ps ps' : List Part}

theorem settings_of_not_shows (h : form.shows ctx path = false) : form.settings ctx index path = [] := by
  cases form with
  | each =>
      rw [BlockForm.shows] at h
      rw [BlockForm.settings]
      cases hv : resolve ctx path with
      | list items => rw [hv] at h; cases h
      | _ => rfl
  | ifHolds => rw [BlockForm.settings, h]; rfl
  | unlessHolds => rw [BlockForm.settings, h]; rfl

theorem settings_of_shows (hform : form ≠ .each) (h : form.shows ctx path = true) :
    form.settings ctx index path = [(ctx, index)] := by
  cases form with
  | each => exact absurd rfl hform
  | ifHolds => rw [BlockForm.settings, h]; rfl
  | unlessHolds => rw [BlockForm.settings, h]; rfl

/-- A block means what its body means in each of its settings. -/
theorem evaluate_block : (Part.block form path body).evaluate ctx index
    = joined ((form.settings ctx index path).map fun s => evaluate s.1 s.2 body) := by
  cases form with
  | each =>
      rw [Part.evaluate, BlockForm.settings]
      cases resolve ctx path with
      | list items => exact congrArg joined (List.ext_getElem (by simp) (by simp))
      | _ => rfl
  | ifHolds =>
      rw [Part.evaluate, BlockForm.settings, BlockForm.shows]
      cases (resolve ctx path).truthy with
      | false => rfl
      | true => exact (joined_singleton _).symm
  | unlessHolds =>
      rw [Part.evaluate, BlockForm.settings, BlockForm.shows]
      cases (resolve ctx path).truthy with
      | true => rfl
      | false => exact (joined_singleton _).symm

/-- A block that is not rendered means nothing. -/
theorem evaluate_of_not_shows (h : form.shows ctx path = false) :
    (Part.block form path body).evaluate ctx index = .ok [] := by
  rw [evaluate_block, settings_of_not_shows h]
  rfl

/-- A conditional block that is rendered means what its body means. -/
theorem evaluate_of_shows (hform : form ≠ .each) (h : form.shows ctx path = true) :
    (Part.block form path body).evaluate ctx index = evaluate ctx index body := by
  rw [evaluate_block, settings_of_shows hform h]
  exact joined_singleton _

/-! ## Order -/

theorem Part.inOrder_block_of_le (h : form.rank ≤ rank) :
    (Part.block form path body).inOrder rank ctx index = Template.inOrder rank ctx index body := by
  rw [Part.inOrder, if_pos h]

theorem Part.inOrder_block_iff (h : rank < form.rank) :
    (Part.block form path body).inOrder rank ctx index = true ↔
      (rank ≠ 0 → ∃ t, (Part.block form path body).evaluate ctx index = .ok t)
        ∧ (form.shows ctx path = true →
          (∀ s ∈ form.settings ctx index path, Template.inOrder 0 s.1 s.2 body = true)
            ∧ ∀ p ∈ body, p.gone form.rank ctx = true)
        ∧ (form.shows ctx path = false → Template.inOrder form.rank ctx index body = true) := by
  have hok : ∀ x : Except Failure Text, x.isOk = true ↔ ∃ t, x = .ok t := by
    intro x
    cases x <;> simp [Except.isOk, Except.toBool]
  rw [Part.inOrder, if_neg (Nat.not_le.2 h), Bool.and_eq_true, Bool.or_eq_true, decide_eq_true_eq, hok,
    or_iff_not_imp_left]
  cases form.shows ctx path <;> simp

theorem inOrder_cons_iff : inOrder rank ctx index (p :: ps) = true ↔
    p.inOrder rank ctx index = true ∧ inOrder rank ctx index ps = true := by
  rw [inOrder, Bool.and_eq_true]

theorem inOrder_append_iff : inOrder rank ctx index (ps ++ ps') = true ↔
    inOrder rank ctx index ps = true ∧ inOrder rank ctx index ps' = true := by
  induction ps with
  | nil => simp [inOrder]
  | cons p ps ih => rw [List.cons_append, inOrder_cons_iff, ih, inOrder_cons_iff, and_assoc]

theorem Part.inOrder_text_iff {t : Text} : (Part.text t).inOrder rank ctx index = true ↔
    (rank = 0 → markEnd ∉ t) := by
  rw [Part.inOrder, Bool.or_eq_true, decide_eq_true_eq, Bool.not_eq_true', List.contains_eq_mem,
    decide_eq_false_iff_not, or_iff_not_imp_left, ne_eq, not_not]

end Blocks

/-! ## Numbered bodies -/

section Numbered

variable {n : Nat} {ctx : Context} {index : Text}

theorem Part.gone_numbered {rank : Nat} : ∀ p : Part, (p.numbered n).gone rank ctx = p.gone rank ctx
  | .text _ => rfl
  | .value _ => rfl
  | .raw _ => rfl
  | .index => rfl
  | .block _ _ _ => rfl

theorem numbered_eq_map (ps : List Part) : numbered n ps = ps.map (Part.numbered n) := by
  induction ps with
  | nil => rfl
  | cons p ps ih => rw [numbered, ih, List.map_cons]

mutual

theorem Part.inOrder_numbered : ∀ {p : Part} {allowed : BlockForm → Bool} {inEach : Bool} {rank : Nat},
    allowed .each = false → p.proper allowed inEach = true → p.inOrder rank ctx (Text.ofNat n) = true →
    (p.numbered n).inOrder rank ctx index = true
  | .text _, _, _, _, _, _, h => h
  | .value _, _, _, _, _, _, _ => rfl
  | .raw _, _, _, _, _, _, _ => rfl
  | .index, _, _, _, _, _, _ => by
      refine Part.inOrder_text_iff.2 fun _ hmem => ?_
      cases isPlainGlyph_of_mem_ofNat hmem
  | .block form path body, allowed, inEach, rank, heach, hp, h => by
      have heval : ((Part.block form path body).numbered n).evaluate ctx index = _ :=
        Part.evaluate_numbered heach hp
      obtain ⟨hform, -, hbody⟩ := Part.proper_block_iff.1 hp
      have hne : form ≠ .each := by
        rintro rfl
        cases heach.symm.trans hform
      have heach' : without form allowed .each = false := without_eq_false heach
      rw [Part.numbered] at heval ⊢
      by_cases hrank : form.rank ≤ rank
      · rw [Part.inOrder_block_of_le hrank] at h ⊢
        exact Template.inOrder_numbered heach' hbody h
      · rw [Part.inOrder_block_iff (by omega)] at h ⊢
        obtain ⟨hok, hshows, hidle⟩ := h
        refine ⟨fun hpos => ?_, fun hs => ⟨fun s hmem => ?_, fun q hq => ?_⟩, fun hs => ?_⟩
        · rw [heval]
          exact hok hpos
        · rw [settings_of_shows hne hs, List.mem_singleton] at hmem
          subst hmem
          refine Template.inOrder_numbered heach' hbody ((hshows hs).1 (ctx, Text.ofNat n) ?_)
          rw [settings_of_shows hne hs, List.mem_singleton]
        · rw [numbered_eq_map] at hq
          obtain ⟨q', hq', rfl⟩ := List.mem_map.1 hq
          rw [Part.gone_numbered]
          exact (hshows hs).2 q' hq'
        · exact Template.inOrder_numbered heach' hbody (hidle hs)

/-- Numbering a body keeps it in order. -/
theorem inOrder_numbered : ∀ {ps : List Part} {allowed : BlockForm → Bool} {inEach : Bool} {rank : Nat},
    allowed .each = false → proper allowed inEach ps = true → inOrder rank ctx (Text.ofNat n) ps = true →
    inOrder rank ctx index (numbered n ps) = true
  | [], _, _, _, _, _, _ => rfl
  | p :: ps, _, _, _, heach, hps, h => by
      obtain ⟨hp, hps⟩ := proper_cons_iff.1 hps
      obtain ⟨h, hs⟩ := inOrder_cons_iff.1 h
      exact inOrder_cons_iff.2 ⟨p.inOrder_numbered heach hp h, inOrder_numbered heach hps hs⟩

end

end Numbered

/-! ## Templates that are in order everywhere -/

section Everywhere

mutual

theorem Part.inOrder_of_le : ∀ {p : Part} {allowed : BlockForm → Bool} {inEach : Bool} {rank : Nat}
    {ctx : Context} {index : Text}, rank ≠ 0 → (∀ form, allowed form = true → form.rank ≤ rank) →
    p.proper allowed inEach = true → p.inOrder rank ctx index = true
  | .text _, _, _, _, _, _, hpos, _, _ => Part.inOrder_text_iff.2 fun h => absurd h hpos
  | .value _, _, _, _, _, _, _, _, _ => rfl
  | .raw _, _, _, _, _, _, _, _, _ => rfl
  | .index, _, _, _, _, _, _, _, _ => rfl
  | .block form path body, allowed, _, _, _, _, hpos, h, hp => by
      obtain ⟨hform, -, hbody⟩ := Part.proper_block_iff.1 hp
      rw [Part.inOrder_block_of_le (h form hform)]
      exact Template.inOrder_of_le hpos (fun form' hf => h form' (without_iff.1 hf).1) hbody

/-- A body that is taken away has no order, where no pass before sees a block in it. -/
theorem inOrder_of_le : ∀ {ps : List Part} {allowed : BlockForm → Bool} {inEach : Bool} {rank : Nat}
    {ctx : Context} {index : Text}, rank ≠ 0 → (∀ form, allowed form = true → form.rank ≤ rank) →
    proper allowed inEach ps = true → inOrder rank ctx index ps = true
  | [], _, _, _, _, _, _, _, _ => rfl
  | p :: ps, _, _, _, _, _, hpos, h, hps => by
      obtain ⟨hp, hps⟩ := proper_cons_iff.1 hps
      exact inOrder_cons_iff.2 ⟨p.inOrder_of_le hpos h hp, inOrder_of_le hpos h hps⟩

end

theorem BlockForm.rank_pos (form : BlockForm) : 0 < form.rank := by cases form <;> decide

theorem BlockForm.ne_of_rank_lt {form form' : BlockForm} (h : form.rank < form'.rank) : form ≠ form' :=
  fun heq => Nat.ne_of_lt h (congrArg BlockForm.rank heq)

theorem BlockForm.ne_each_of_rank_lt {form form' : BlockForm} (h : form.rank < form'.rank) : form ≠ .each := by
  have htop : form'.rank ≤ BlockForm.each.rank := by cases form' <;> decide
  rintro rfl
  omega

theorem Part.gone_of_supported {p : Part} {rank rank' : Nat} {inEach : Bool} {ctx : Context}
    (hle : rank' ≤ rank) (hp : p.supported rank' inEach = true) : p.gone rank ctx = true := by
  cases p with
  | block form path body =>
      simp only [Part.supported, Bool.and_eq_true, decide_eq_true_eq] at hp
      have hform : form.rank ≤ rank := Nat.le_trans hp.1.1 hle
      simp [Part.gone, hform]
  | _ => rfl

theorem supported_of_mem {ps : List Part} {rank : Nat} {inEach : Bool} (h : supported rank inEach ps = true) :
    ∀ p ∈ ps, p.supported rank inEach = true := by
  induction ps with
  | nil => simp
  | cons p ps ih =>
      rw [supported, Bool.and_eq_true] at h
      exact List.forall_mem_cons.2 ⟨h.1, ih h.2⟩

mutual

theorem Part.inOrder_of_supported : ∀ {p : Part} {rank : Nat} {inEach : Bool} (ctx : Context) (index : Text),
    p.supported rank inEach = true → p.inOrder 0 ctx index = true
  | .text _, _, _, _, _, hp => Part.inOrder_text_iff.2 fun _ => (not_mem_of_isPlainGlyph hp).2
  | .value _, _, _, _, _, _ => rfl
  | .raw _, _, _, _, _, _ => rfl
  | .index, _, _, _, _, _ => rfl
  | .block form path body, _, _, ctx, index, hp => by
      simp only [Part.supported, Bool.and_eq_true, decide_eq_true_eq] at hp
      obtain ⟨-, hbody⟩ := hp
      refine (Part.inOrder_block_iff form.rank_pos).2
        ⟨fun h => absurd rfl h, fun _ => ⟨fun s _ => ?_, ?_⟩, fun _ => ?_⟩
      · exact Template.inOrder_of_supported s.1 s.2 hbody
      · exact fun p hp => Part.gone_of_supported (Nat.sub_le _ _) (supported_of_mem hbody p hp)
      · have hproper : Template.proper (fun form' => form'.rank ≤ form.rank) _ body = true :=
          proper_of_supported (fun form' hf => decide_eq_true (Nat.le_trans hf (Nat.sub_le _ _))) hbody
        exact inOrder_of_le (Nat.ne_of_gt form.rank_pos) (fun form' hf => of_decide_eq_true hf) hproper

/-- A template whose blocks lie in each other in the order of the passes is in order in every context. -/
theorem inOrder_of_supported : ∀ {ps : List Part} {rank : Nat} {inEach : Bool} (ctx : Context) (index : Text),
    supported rank inEach ps = true → inOrder 0 ctx index ps = true
  | [], _, _, _, _, _ => rfl
  | p :: ps, _, _, ctx, index, hps => by
      rw [supported, Bool.and_eq_true] at hps
      exact inOrder_cons_iff.2 ⟨p.inOrder_of_supported ctx index hps.1, inOrder_of_supported ctx index hps.2⟩

end

end Everywhere

end RecordStore.Template
