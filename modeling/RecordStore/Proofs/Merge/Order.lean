import RecordStore.Merge
import RecordStore.Proofs.Codec

/-!
# RecordStore.Proofs.Merge.Order

The order of writes, seen from the other side.  Times, texts and bytes that are exchanged compare the
other way around, so that of two sides with different bytes exactly one was written later, unless
their times cannot be compared (`writtenLater_swap`).  For the winner of a conflict and for its later
time it does not matter which side is ours (`pickLater_swapped`, `laterTime_swap`).
-/

namespace RecordStore

/-! ## Times -/

namespace Timestamp

variable {a b : Timestamp}

theorem compare?_swap (a b : Timestamp) : b.compare? a = (a.compare? b).map Ordering.swap := by
  unfold compare?
  cases a.instant? <;> cases b.instant? <;>
    simp only [Option.map_some, Option.map_none, Int.compare_swap]

theorem compare?_self (a : Timestamp) : a.compare? a = some .eq := by
  unfold compare?
  cases a.instant? <;> simp

theorem same_comm (a b : Timestamp) : a.same b = b.same a := by
  unfold same
  rw [compare?_swap b a]
  cases b.compare? a with
  | none => rfl
  | some o => cases o <;> rfl

/-- Times compare when both have an offset or neither has. -/
theorem compare?_eq_none_iff : a.compare? b = none ↔ a.offset.isSome ≠ b.offset.isSome := by
  unfold compare? instant?
  cases a.offset <;> cases b.offset <;> simp

end Timestamp

theorem Header.sameTime_comm (a b : Option Timestamp) : sameTime a b = sameTime b a := by
  cases a <;> cases b
  case some.some a b => exact a.same_comm b
  all_goals rfl

/-! ## Texts and bytes -/

theorem Text.compare_swap (s t : Text) : t.compare s = (s.compare t).swap := by
  induction s generalizing t with
  | nil => cases t <;> rfl
  | cons a s ih =>
      cases t with
      | nil => rfl
      | cons b t =>
          rw [compare, compare, ih t]
          split
          · next h => simp [show ¬ a.code < b.code by omega]
          · split <;> simp

namespace Merge

theorem compareBytes_swap (s t : Bytes) : compareBytes t s = (compareBytes s t).swap := by
  induction s generalizing t with
  | nil => cases t <;> rfl
  | cons a s ih =>
      cases t with
      | nil => rfl
      | cons b t =>
          rw [compareBytes, compareBytes, ih t]
          split
          · next h => simp [UInt8.lt_asymm h]
          · split <;> simp

theorem eq_of_compareBytes {s t : Bytes} (h : compareBytes s t = .eq) : s = t := by
  induction s generalizing t with
  | nil =>
      cases t with
      | nil => rfl
      | cons b t => cases h
  | cons a s ih =>
      cases t with
      | nil => cases h
      | cons b t =>
          rw [compareBytes] at h
          split at h
          · cases h
          · split at h
            · cases h
            · next hlt hgt =>
              rw [UInt8.le_antisymm (UInt8.not_lt.1 hgt) (UInt8.not_lt.1 hlt), ih h]

/-! ## The later write -/

section WrittenLater

variable {a b : Item} {blobA blobB : Bytes} {f : Failure}

/-- **The later write.** Whether one side was written later than the other fails from both sides in
the same way, and is true from one of them, or from neither when their bytes are the same. -/
theorem writtenLater_swap : match writtenLater a blobA b blobB with
    | .error f => writtenLater b blobB a blobA = .error f
    | .ok true => writtenLater b blobB a blobA = .ok false
    | .ok false => writtenLater b blobB a blobA = .ok true
      ∨ writtenLater b blobB a blobA = .ok false ∧ blobA = blobB := by
  unfold writtenLater
  by_cases hrev : a.header.revisionNumber = b.header.revisionNumber
  · rw [if_neg (not_not.2 hrev), if_neg (not_not.2 hrev.symm),
      Timestamp.compare?_swap (writeTime a.header) (writeTime b.header),
      Text.compare_swap (writer a.header) (writer b.header), compareBytes_swap blobA blobB]
    cases (writeTime a.header).compare? (writeTime b.header) with
    | none => rfl
    | some time =>
        cases time
        case lt => exact .inl rfl
        case gt => rfl
        case eq =>
          cases (writer a.header).compare (writer b.header)
          case lt => exact .inl rfl
          case gt => rfl
          case eq =>
            cases hbytes : compareBytes blobA blobB
            case lt => exact .inl rfl
            case gt => rfl
            case eq => exact .inr ⟨rfl, eq_of_compareBytes hbytes⟩
  · rw [if_pos hrev, if_pos (Ne.symm hrev)]
    by_cases hlt : b.header.revisionNumber < a.header.revisionNumber
    · simp [hlt, show ¬ a.header.revisionNumber < b.header.revisionNumber by omega]
    · simp [hlt, show a.header.revisionNumber < b.header.revisionNumber by omega]

/-- Two writes cannot be told apart when the revisions are equal and the times do not compare. -/
theorem writtenLater_eq_error_iff : writtenLater a blobA b blobB = .error f ↔
    f = .incomparableTimes ∧ a.header.revisionNumber = b.header.revisionNumber
      ∧ (writeTime a.header).compare? (writeTime b.header) = none := by
  unfold writtenLater
  split
  · next h => simp [h]
  · next h =>
    rw [not_not] at h
    split
    · next ht => simp [h, ht, eq_comm]
    · next ht => simp [ht]
    · next ht => simp [ht]
    · next ht => split <;> simp [ht]

end WrittenLater

end Merge

/-! ## Both sides of a conflict -/

/-- The conflict seen from the other side. -/
def Conflict.swapped (c : Conflict) : Conflict := { c with ours := c.theirs, theirs := c.ours }

namespace Merge

/-- The winner does not depend on which side is ours, when sides with the same bytes are the same. -/
theorem pickLater_swapped {ours theirs : Item} {c : Conflict}
    (hsame : c.ours.getD [] = c.theirs.getD [] → ours = theirs) :
    pickLater theirs ours c.swapped = pickLater ours theirs c := by
  have hswap := @writtenLater_swap theirs ours (c.theirs.getD []) (c.ours.getD [])
  unfold pickLater
  change (writtenLater ours (c.ours.getD []) theirs (c.theirs.getD []) >>= _) = _
  cases hlater : writtenLater theirs (c.theirs.getD []) ours (c.ours.getD []) with
  | error f =>
      rw [hlater] at hswap
      rw [hswap]
      rfl
  | ok later =>
      rw [hlater] at hswap
      cases later with
      | true =>
          rw [hswap]
          rfl
      | false =>
          rcases hswap with hswap | ⟨hswap, hbytes⟩
          · rw [hswap]
            rfl
          · rw [hswap, hsame hbytes.symm]

theorem pickLater_eq_error_iff {ours theirs : Item} {c : Conflict} {f : Failure} :
    pickLater ours theirs c = .error f ↔ f = .incomparableTimes
      ∧ ours.header.revisionNumber = theirs.header.revisionNumber
      ∧ (writeTime ours.header).compare? (writeTime theirs.header) = none := by
  have hpick : pickLater ours theirs c = .error f
      ↔ writtenLater theirs (c.theirs.getD []) ours (c.ours.getD []) = .error f := by
    unfold pickLater
    cases writtenLater theirs (c.theirs.getD []) ours (c.ours.getD []) with
    | error g => exact ⟨fun h => Except.error.inj h ▸ rfl, fun h => Except.error.inj h ▸ rfl⟩
    | ok later => cases later <;> exact ⟨nofun, nofun⟩
  rw [hpick, writtenLater_eq_error_iff, eq_comm (a := theirs.header.revisionNumber),
    Timestamp.compare?_eq_none_iff, Timestamp.compare?_eq_none_iff, ne_comm]

/-- The later of two times is the same point in time from both sides. -/
theorem laterTime_swap (a b : Option Timestamp) : match laterTime a b with
    | .error f => laterTime b a = .error f
    | .ok t => ∃ t', laterTime b a = .ok t' ∧ Header.sameTime t t' = true := by
  cases a with
  | none => cases b with
    | none => exact ⟨none, rfl, rfl⟩
    | some b => exact ⟨some b, rfl, Item.sameTime_self _⟩
  | some a => cases b with
    | none => exact ⟨some a, rfl, Item.sameTime_self _⟩
    | some b =>
        unfold laterTime
        dsimp only
        rw [Timestamp.compare?_swap a b]
        cases hcmp : a.compare? b with
        | none => rfl
        | some o =>
            cases o
            case lt => exact ⟨some b, rfl, Item.sameTime_self _⟩
            case gt => exact ⟨some a, rfl, Item.sameTime_self _⟩
            case eq => exact ⟨some b, rfl, by simp [Header.sameTime, Timestamp.same, hcmp]⟩

/-- There is no later time of two that do not compare. -/
theorem laterTime_eq_error_iff {a b : Option Timestamp} {f : Failure} : laterTime a b = .error f ↔
    f = .incomparableTimes ∧ ∃ x ∈ a, ∃ y ∈ b, x.compare? y = none := by
  cases a with
  | none => cases b <;> simp [laterTime]
  | some a => cases b with
    | none => simp [laterTime]
    | some b =>
        unfold laterTime
        dsimp only
        rw [Timestamp.compare?_swap a b]
        cases hcmp : a.compare? b with
        | none => simp [hcmp, eq_comm]
        | some o => cases o <;> simp [hcmp]

end Merge

end RecordStore
