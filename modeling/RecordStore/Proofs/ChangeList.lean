import RecordStore.ChangeList
import RecordStore.Proofs.Procedure

/-!
# RecordStore.Proofs.ChangeList

Adding to a list of changes.  A change is added at the end of the list, or refused without a trace
(`append_yields_iff`); an item that has bytes is added as the change that stores them
(`write_yields`, `write_yields_error`).
-/

namespace RecordStore

open Procedure

/-- Encoding an item gives its bytes. -/
theorem Item.encode_yields (i : Item) : i.encode.Yields () i.bytes () := by
  unfold Item.encode
  cases h : i.bytes with
  | error e => exact (yields_fail e ()).bind_error
  | ok blob =>
      refine yields_ofExcept_ok_bind_iff.2 (yields_report_bind_iff.2 ?_)
      exact yields_pure blob ()

namespace ChangeList

variable {l l' : ChangeList} {c : Change} {i : Item} {op : Operation} {blob : Bytes}

/-- The list with a change at its end. -/
def added (c : Change) (l : ChangeList) : ChangeList := { l with changes := l.changes ++ [c] }

/-- Whether a list takes a change. -/
def Takes (l : ChangeList) (ident : Text) : Prop := l.flushed = false ∧ l.holds ident = false

theorem holds_eq_false_iff {ident : Text} : l.holds ident = false ↔ ident ∉ l.changes.map Change.ident := by
  simp [holds]

/-- A list takes changes of new identifiers only. -/
theorem Takes.nodup_added (h : l.Takes c.ident) (hl : (l.changes.map Change.ident).Nodup) :
    ((l.added c).changes.map Change.ident).Nodup := by
  have hnew := holds_eq_false_iff.1 h.2
  rw [added, List.map_append, List.nodup_append]
  refine ⟨hl, by simp, ?_⟩
  intro x hx y hy heq
  obtain rfl := List.mem_singleton.1 hy
  have hx' : x = c.ident := heq
  exact hnew (hx' ▸ hx)

theorem append_yields (h : l.Takes c.ident) : (append c).Yields l (.ok ()) (l.added c) := by
  have hf : ¬ l.flushed = true := by simp [h.1]
  have hh : ¬ l.holds c.ident = true := by simp [h.2]
  unfold append
  refine yields_state_bind_iff.2 ?_
  rw [if_neg hf, if_neg hh]
  exact yields_put _ _

/-- A change is added, or it is refused and the list stays as it is. -/
theorem append_yields_iff {r : Except Failure Unit} : (append c).Yields l r l' ↔
    (l.Takes c.ident ∧ r = .ok () ∧ l' = l.added c)
      ∨ (¬ l.Takes c.ident ∧ l' = l ∧ ∃ fault, r = .error (.programming fault)
        ∧ fault = if l.flushed then .listFlushed c.ident
          else .duplicateWrite c.ident c.operation.name) := by
  by_cases ht : l.Takes c.ident
  · have happend := append_yields ht
    constructor
    · intro h
      exact .inl ⟨ht, h.unique happend⟩
    · rintro (⟨-, rfl, rfl⟩ | ⟨hnot, -⟩)
      · exact happend
      · exact absurd ht hnot
  · have happend : (append c).Yields l (.error (.programming (if l.flushed then .listFlushed c.ident
        else .duplicateWrite c.ident c.operation.name))) l := by
      unfold append
      refine yields_state_bind_iff.2 ?_
      by_cases hf : l.flushed = true
      · simp only [hf, if_true]
        exact yields_fail _ _
      · have hholds : l.holds c.ident = true := by
          by_cases hh : l.holds c.ident = true
          · exact hh
          · exact absurd ⟨by simpa using hf, by simpa using hh⟩ ht
        simp only [hf, hholds, Bool.false_eq_true, if_false, if_true]
        exact yields_fail _ _
    constructor
    · intro h
      have hu := h.unique happend
      exact .inr ⟨ht, hu.2, _, hu.1, rfl⟩
    · rintro (⟨htakes, -⟩ | ⟨-, rfl, _, rfl, rfl⟩)
      · exact absurd htakes ht
      · exact happend

/-- An item that has bytes is added as the change that stores them, if the list takes it. -/
theorem write_yields (hb : i.bytes = .ok blob)
    (hc : Change.make op i.kind.name i.ident (some blob) = .ok c) {r : Except Failure Unit}
    (h : (append c).Yields l r l') : (write i op).Yields l r l' := by
  have hencode := i.encode_yields
  rw [hb] at hencode
  unfold write
  refine hencode.lift.bind ?_
  rw [hc]
  exact yields_ofExcept_ok_bind_iff.2 h

/-- An item without bytes is not added. -/
theorem write_yields_error {e : Failure} (hb : i.bytes = .error e) :
    (write i op).Yields l (.error e) l := by
  have hencode := i.encode_yields
  rw [hb] at hencode
  exact hencode.lift.bind_error

end ChangeList

end RecordStore
