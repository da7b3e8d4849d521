import RecordStore.Proofs.Json.Strings

/-!
# RecordStore.Proofs.TextOrder

The order of texts is a linear order: texts are compared by their first code points, and by what is
behind those when they are equal (`ble_cons_iff`).
-/

namespace RecordStore.Text

@[simp] theorem nil_ble (t : Text) : ble [] t = true := by
  cases t <;> rfl

@[simp] theorem not_cons_ble_nil (g : Glyph) (t : Text) : ble (g :: t) [] = false := rfl

theorem ble_cons_iff {g g' : Glyph} {s t : Text} : ble (g :: s) (g' :: t) = true
    ↔ g.code < g'.code ∨ (g = g' ∧ s.ble t = true) := by
  have heq : g = g' ↔ g.code = g'.code := ⟨congrArg Glyph.code, Glyph.code_inj⟩
  rw [heq, ble, compare]
  split
  · next h => simp [h]
  · split
    · next h h' =>
      have hne : g.code ≠ g'.code := by omega
      simp [h, hne]
    · next h h' =>
      have hcode : g.code = g'.code := by omega
      simp [hcode, ble]

theorem ble_trans (s t u : Text) (h : s.ble t = true) (h' : t.ble u = true) : s.ble u = true := by
  induction s generalizing t u with
  | nil => exact nil_ble u
  | cons a s ih =>
      cases t with
      | nil => cases h
      | cons b t =>
          cases u with
          | nil => cases h'
          | cons c u =>
              rw [ble_cons_iff] at h h' ⊢
              grind

theorem ble_total (s t : Text) : (s.ble t || t.ble s) = true := by
  rw [Bool.or_eq_true]
  induction s generalizing t with
  | nil => exact .inl (nil_ble t)
  | cons a s ih =>
      cases t with
      | nil => exact .inr (nil_ble _)
      | cons b t =>
          have hcode : a.code = b.code → a = b := Glyph.code_inj
          rw [ble_cons_iff, ble_cons_iff]
          grind

theorem ble_antisymm {s t : Text} (h : s.ble t = true) (h' : t.ble s = true) : s = t := by
  induction s generalizing t with
  | nil =>
      cases t with
      | nil => rfl
      | cons b t => cases h'
  | cons a s ih =>
      cases t with
      | nil => cases h
      | cons b t =>
          rw [ble_cons_iff] at h h'
          grind

end RecordStore.Text
