import RecordStore.Proofs.Template.Evaluate

/-!
# RecordStore.Proofs.Template.Skeleton

What is left of a template when its conditions are decided: fixed texts with holes for values between them
(`skeleton`).  A template without `each` stands for its skeleton with the values in the holes
(`evaluate_skeleton`), so two contexts in which the same conditions hold can differ in the holes only.
-/

namespace RecordStore.Template

/-! ## Skeletons -/

/-- Fixed texts, with holes for values between them. -/
abbrev Skeleton := List (Text ⊕ Substitution)

namespace Skeleton

/-- The holes of a skeleton. -/
def holes (k : Skeleton) : List Substitution := k.filterMap Sum.getRight?

/-- A skeleton with contents in its holes. -/
def fill (content : Substitution → Text) (k : Skeleton) : Text := k.flatMap (Sum.elim id content)

end Skeleton

mutual

/-- A part whose conditions are decided. -/
def Part.skeleton (holds : Text → Bool) : Part → Skeleton
  | .text t => [.inl t]
  | .value path => [.inr ⟨path, true⟩]
  | .raw path => [.inr ⟨path, false⟩]
  | .index => []
  | .block .each _ _ => []
  | .block .ifHolds path body => if holds path then skeleton holds body else []
  | .block .unlessHolds path body => if holds path then [] else skeleton holds body

/-- A template whose conditions are decided. -/
def skeleton (holds : Text → Bool) : List Part → Skeleton
  | [] => []
  | p :: ps => p.skeleton holds ++ skeleton holds ps

end

mutual

/-- The conditions of the blocks of a part. -/
def Part.conditions : Part → List Text
  | .block _ path body => path :: conditions body
  | _ => []

/-- The conditions of the blocks of a template. -/
def conditions : List Part → List Text
  | [] => []
  | p :: ps => p.conditions ++ conditions ps

end

section Congr

variable {holds holds' : Text → Bool}

mutual

theorem Part.skeleton_congr : ∀ {p : Part}, (∀ path ∈ p.conditions, holds path = holds' path) →
    p.skeleton holds = p.skeleton holds'
  | .text _, _ => rfl
  | .value _, _ => rfl
  | .raw _, _ => rfl
  | .index, _ => rfl
  | .block form path body, h => by
      have hpath := h path List.mem_cons_self
      have hbody := Template.skeleton_congr fun path' hpath' => h path' (List.mem_cons_of_mem _ hpath')
      cases form with
      | each => rfl
      | ifHolds => rw [Part.skeleton, Part.skeleton, hpath, hbody]
      | unlessHolds => rw [Part.skeleton, Part.skeleton, hpath, hbody]

/-- The skeleton of a template depends on the conditions of its blocks only. -/
theorem skeleton_congr : ∀ {ps : List Part}, (∀ path ∈ conditions ps, holds path = holds' path) →
    skeleton holds ps = skeleton holds' ps
  | [], _ => rfl
  | p :: ps, h => by
      rw [conditions, List.forall_mem_append] at h
      rw [skeleton, skeleton, p.skeleton_congr h.1, skeleton_congr h.2]

end

end Congr

/-! ## Contents -/

/-- What is put into a hole in a context. -/
def Substitution.text (ctx : Context) (s : Substitution) : Except Failure Text :=
  (valueText (resolve ctx s.path)).map fun t => if s.escaped then t.escape else t

/-- A skeleton in a context. -/
def Skeleton.evaluate (ctx : Context) (k : Skeleton) : Except Failure Text :=
  joined (k.map (Sum.elim .ok (Substitution.text ctx)))

section Evaluate

variable {ctx : Context} {index : Text} {rank : Nat} {k : Skeleton} {content : Substitution → Text}

theorem Substitution.text_of_ok {path t : Text} {escaped : Bool}
    (h : valueText (resolve ctx path) = .ok t) :
    Substitution.text ctx ⟨path, escaped⟩ = .ok (if escaped then t.escape else t) := by
  rw [Substitution.text, h]
  rfl

theorem Substitution.text_of_error {path : Text} {escaped : Bool} {e : Failure}
    (h : valueText (resolve ctx path) = .error e) : Substitution.text ctx ⟨path, escaped⟩ = .error e := by
  rw [Substitution.text, h]
  rfl

theorem Skeleton.evaluate_cons (a : Text ⊕ Substitution) (k : Skeleton) : Skeleton.evaluate ctx (a :: k)
    = do return (← a.elim .ok (Substitution.text ctx)) ++ (← k.evaluate ctx) := rfl

theorem Skeleton.evaluate_append (k k' : Skeleton) :
    (k ++ k').evaluate ctx = do return (← k.evaluate ctx) ++ (← k'.evaluate ctx) := by
  rw [Skeleton.evaluate, List.map_append, joined_append]
  rfl

theorem Skeleton.evaluate_singleton (a : Text ⊕ Substitution) :
    Skeleton.evaluate ctx [a] = a.elim .ok (Substitution.text ctx) := by
  rw [Skeleton.evaluate_cons]
  cases a.elim Except.ok (Substitution.text ctx) with
  | error e => rfl
  | ok t => exact congrArg Except.ok (List.append_nil t)

/-- A skeleton depends on what its holes have in a context only. -/
theorem Skeleton.evaluate_congr {ctx' : Context} (h : ∀ s ∈ k.holes, s.text ctx = s.text ctx') :
    k.evaluate ctx = k.evaluate ctx' := by
  induction k with
  | nil => rfl
  | cons a k ih =>
      cases a with
      | inl t => rw [Skeleton.evaluate_cons, Skeleton.evaluate_cons, ih h]; rfl
      | inr s =>
          have hs : s.text ctx = s.text ctx' := h s List.mem_cons_self
          rw [Skeleton.evaluate_cons, Skeleton.evaluate_cons, ih fun s' hs' => h s' (List.mem_cons_of_mem _ hs'),
            Sum.elim_inr, Sum.elim_inr, hs]

mutual

theorem Part.evaluate_skeleton : ∀ {p : Part} {rank : Nat}, rank ≤ 2 → p.supported rank false = true →
    p.evaluate ctx index = (p.skeleton fun path => (resolve ctx path).truthy).evaluate ctx
  | .text t, _, _, _ => (Skeleton.evaluate_singleton (.inl t)).symm
  | .value path, _, _, _ => (Skeleton.evaluate_singleton (.inr ⟨path, true⟩)).symm
  | .raw path, _, _, _ => by
      rw [Part.evaluate, Part.skeleton, Skeleton.evaluate_singleton, Sum.elim_inr, Substitution.text]
      cases valueText (resolve ctx path) <;> rfl
  | .index, _, _, hp => nomatch hp
  | .block form path body, rank, hr, hp => by
      simp only [Part.supported, Bool.and_eq_true, decide_eq_true_eq] at hp
      obtain ⟨⟨hrank, -⟩, hbody⟩ := hp
      cases form with
      | each => simp only [BlockForm.rank] at hrank; omega
      | ifHolds =>
          have hinner := Template.evaluate_skeleton (by decide) hbody
          rw [Part.evaluate, Part.skeleton, hinner]
          split <;> rfl
      | unlessHolds =>
          have hinner := Template.evaluate_skeleton (by decide) hbody
          rw [Part.evaluate, Part.skeleton, hinner]
          split <;> rfl

/-- A template without `each` stands for its skeleton, with the values of the context in the holes. -/
theorem evaluate_skeleton : ∀ {ps : List Part} {rank : Nat}, rank ≤ 2 → supported rank false ps = true →
    evaluate ctx index ps = (skeleton (fun path => (resolve ctx path).truthy) ps).evaluate ctx
  | [], _, _, _ => rfl
  | p :: ps, _, hr, hps => by
      rw [supported, Bool.and_eq_true] at hps
      rw [evaluate, p.evaluate_skeleton hr hps.1, evaluate_skeleton hr hps.2, skeleton,
        Skeleton.evaluate_append]

end

theorem failsLong_text (s : Substitution) : FailsLong (s.text ctx) := (failsLong_valueText _).map _

/-- Where all holes have contents, a skeleton stands for what it is with these. -/
theorem Skeleton.evaluate_eq_fill (h : ∀ s ∈ k.holes, s.text ctx = .ok (content s)) :
    k.evaluate ctx = .ok (k.fill content) := by
  induction k with
  | nil => rfl
  | cons a k ih =>
      cases a with
      | inl t =>
          rw [Skeleton.evaluate_cons, ih h]
          rfl
      | inr s =>
          have hs : s.text ctx = .ok (content s) := h s List.mem_cons_self
          rw [Skeleton.evaluate_cons, ih fun s' hs' => h s' (List.mem_cons_of_mem _ hs'), Sum.elim_inr, hs]
          rfl

/-- A text is a skeleton with its holes filled in a certain way. -/
def Fills (k : Skeleton) (P : Substitution → Text → Prop) (t : Text) : Prop :=
  ∃ content, t = k.fill content ∧ ∀ s ∈ k.holes, P s (content s)

theorem Skeleton.evaluate_fills {P : Substitution → Text → Prop}
    (h : ∀ s ∈ k.holes, ∃ t, s.text ctx = .ok t ∧ P s t) : ∃ t, k.evaluate ctx = .ok t ∧ Fills k P t := by
  have hcontent : ∀ s ∈ k.holes, s.text ctx = .ok ((s.text ctx).toOption.getD []) := by
    intro s hs
    obtain ⟨t, ht, -⟩ := h s hs
    rw [ht]
    rfl
  refine ⟨_, Skeleton.evaluate_eq_fill hcontent, _, rfl, fun s hs => ?_⟩
  obtain ⟨t, ht, hP⟩ := h s hs
  rw [ht]
  exact hP

/-- Where a hole has no content, a skeleton stands for nothing. -/
theorem Skeleton.evaluate_eq_error {s : Substitution} (hs : s ∈ k.holes) {e : Failure}
    (h : s.text ctx = .error e) : k.evaluate ctx = .error .longInteger := by
  induction k with
  | nil => cases hs
  | cons a k ih =>
      rw [Skeleton.evaluate_cons]
      cases a with
      | inl t =>
          rw [ih hs]
          rfl
      | inr s' =>
          rw [Sum.elim_inr]
          cases hs' : s'.text ctx with
          | error e' =>
              obtain rfl := failsLong_text s' e' hs'
              rfl
          | ok t =>
              have hne : s ≠ s' := by
                rintro rfl
                cases h.symm.trans hs'
              rw [ih ((List.mem_cons.1 hs).resolve_left hne)]
              rfl

end Evaluate

end RecordStore.Template
