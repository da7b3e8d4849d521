import Mathlib.Data.List.Infix
import RecordStore.RecordName

/-!
# RecordStore.Proofs.RecordName

Names of record files are read back as they were made.  A kind and an identifier have a file name of
their own when neither is empty and the kind does not hold the separator (`RecordName.Valid`);
`ofFile?_eq_some_iff` says that the names of record files are exactly the names of such pairs.
-/

namespace RecordStore.RecordName

/-- Kind and identifier of a record: neither is empty, and the kind does not hold the separator. -/
structure Valid (kind ident : Text) : Prop where
  kind_ne_nil : kind ≠ []
  kind_plain : ¬ separator <:+: kind
  ident_ne_nil : ident ≠ []

instance (kind ident : Text) : Decidable (Valid kind ident) :=
  decidable_of_iff (kind ≠ [] ∧ ¬ separator <:+: kind ∧ ident ≠ [])
    ⟨fun ⟨h₁, h₂, h₃⟩ => ⟨h₁, h₂, h₃⟩, fun ⟨h₁, h₂, h₃⟩ => ⟨h₁, h₂, h₃⟩⟩

/-! ## Cutting at the separator -/

theorem separator_eq : separator = [.char '-', .char '@'] := rfl

/-- What stands before the first separator and behind it gives the whole text. -/
theorem eq_append_of_cutAt? {t before rest : Text}
    (h : Text.cutAt? separator t = some (before, rest)) :
    t = before ++ separator ++ rest ∧ ¬ separator <:+: before := by
  induction t generalizing before with
  | nil => simp [Text.cutAt?, separator_eq] at h
  | cons g t ih =>
      rw [Text.cutAt?] at h
      split at h
      · next hd =>
        cases h
        exact ⟨by rw [List.nil_append, Text.dropPrefix?_eq_some_iff.1 hd],
          by simp [separator_eq]⟩
      · next hd =>
        obtain ⟨⟨b, r⟩, hcut, heq⟩ := Option.map_eq_some_iff.1 h
        cases heq
        obtain ⟨ht, hb⟩ := ih hcut
        refine ⟨by rw [ht]; rfl, fun hin => ?_⟩
        rcases List.infix_cons_iff.1 hin with hpre | hin
        · obtain ⟨s, hs⟩ := hpre
          have : g :: t = separator ++ (s ++ separator ++ rest) := by
            rw [← List.append_assoc, ← List.append_assoc, hs, ht]; simp
          rw [Text.dropPrefix?_eq_some_iff.2 this] at hd
          cases hd
        · exact hb hin

/-- A text is cut behind what does not hold the separator: the separator cannot begin there and
end behind it, since its two characters differ. -/
theorem cutAt?_append {before : Text} (h : ¬ separator <:+: before) (rest : Text) :
    Text.cutAt? separator (before ++ separator ++ rest) = some (before, rest) := by
  induction before with
  | nil =>
      have hd : Text.dropPrefix? separator (.char '-' :: .char '@' :: rest) = some rest :=
        Text.dropPrefix?_eq_some_iff.2 rfl
      change Text.cutAt? separator (.char '-' :: .char '@' :: rest) = _
      rw [Text.cutAt?, hd]
  | cons g before ih =>
      have hb : ¬ separator <:+: before := fun hin => h (List.infix_cons_iff.2 (.inr hin))
      have hcut := ih hb
      rw [List.cons_append, List.cons_append, Text.cutAt?, hcut]
      cases hd : Text.dropPrefix? separator (g :: (before ++ separator ++ rest)) with
      | none => rfl
      | some r =>
          rw [Text.dropPrefix?_eq_some_iff, separator_eq] at hd
          obtain ⟨hg, htail⟩ := List.cons.inj hd
          cases before with
          | nil => simp at htail
          | cons g' before =>
              obtain ⟨hg', -⟩ := List.cons.inj htail
              exact absurd ⟨[], before, by rw [hg, hg']; rfl⟩ h

/-! ## Reading names back -/

/-- The pairs of a stem are those that it is made of. -/
theorem split?_eq_some_iff {t kind ident : Text} :
    split? t = some (kind, ident) ↔ Valid kind ident ∧ t = stem kind ident := by
  rw [split?, Option.filter_eq_some_iff]
  simp only [ne_eq, decide_eq_true_eq]
  constructor
  · rintro ⟨hcut, hk, hi⟩
    obtain ⟨ht, hb⟩ := eq_append_of_cutAt? hcut
    exact ⟨⟨hk, hb, hi⟩, ht⟩
  · rintro ⟨v, rfl⟩
    exact ⟨cutAt?_append v.kind_plain ident, v.kind_ne_nil, v.ident_ne_nil⟩

/-- A stem is read as the pair that it is made of, and as no other. -/
theorem ofStem_eq_ok_iff {t kind ident : Text} :
    ofStem t = .ok (kind, ident) ↔ Valid kind ident ∧ t = stem kind ident := by
  rw [← split?_eq_some_iff, ofStem]
  cases split? t <;> simp

/-- What is made of no pair is refused. -/
theorem ofStem_eq_error_iff {t : Text} {e : Failure} : ofStem t = .error e
    ↔ e = .recordName t ∧ ∀ kind ident, Valid kind ident → t ≠ stem kind ident := by
  have hnone : split? t = none ↔ ∀ kind ident, Valid kind ident → t ≠ stem kind ident := by
    simp only [Option.eq_none_iff_forall_ne_some, ne_eq, Prod.forall, split?_eq_some_iff, not_and]
  rw [← hnone, ofStem]
  cases split? t <;> simp [eq_comm]

/-- A file name tells the kind and the identifier that it was made of, and no other. -/
theorem ofFile?_eq_some_iff {name kind ident : Text} :
    ofFile? name = some (kind, ident) ↔ Valid kind ident ∧ name = file kind ident := by
  rw [ofFile?, Option.bind_eq_some_iff]
  constructor
  · rintro ⟨rest, hrest, hsplit⟩
    obtain ⟨v, hstem⟩ := split?_eq_some_iff.1 hsplit
    refine ⟨v, ?_⟩
    rw [Text.dropPrefix?_eq_some_iff] at hrest
    rw [file, ← hstem, ← List.reverse_reverse name, hrest, List.reverse_append,
      List.reverse_reverse]
  · rintro ⟨v, rfl⟩
    refine ⟨(stem kind ident).reverse, ?_, ?_⟩
    · rw [Text.dropPrefix?_eq_some_iff, file, List.reverse_append]
    · rw [List.reverse_reverse]
      exact split?_eq_some_iff.2 ⟨v, rfl⟩

theorem ofFile?_file {kind ident : Text} (v : Valid kind ident) :
    ofFile? (file kind ident) = some (kind, ident) := ofFile?_eq_some_iff.2 ⟨v, rfl⟩

/-- Records of different kinds or identifiers have different files. -/
theorem file_inj {kind ident kind' ident' : Text} (v : Valid kind ident)
    (h : file kind ident = file kind' ident') (v' : Valid kind' ident') :
    kind = kind' ∧ ident = ident' := by
  have := ofFile?_file v
  rw [h, ofFile?_file v', Option.some.injEq, Prod.mk.injEq] at this
  exact ⟨this.1.symm, this.2.symm⟩

end RecordStore.RecordName
