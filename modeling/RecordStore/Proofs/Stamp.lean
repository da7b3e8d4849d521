import RecordStore.Proofs.Item
import RecordStore.Store

/-!
# RecordStore.Proofs.Stamp

Stamps.  A regular item that is stamped is regular again, and its revision is counted up by one
(`Item.stamped`).  The revision of an item is in order (`Header.Counted`) when it is positive, and
its parent is missing or the revision before it; stamping makes it so.
-/

namespace RecordStore

open Procedure

/-! ## Clocks -/

/-- A clock keeps its offset when it advances. -/
theorem Clock.recordable_advance {c c' : Clock} (h : c.advance = .ok c') (hc : c.now.Recordable) :
    c'.now.Recordable := by
  unfold Clock.advance at h
  split at h
  · cases h
  · split at h
    · next t ht =>
      cases h
      have hoffset : t.offset = c.now.offset := by
        unfold Timestamp.later Timestamp.ofShown at ht
        dsimp only at ht
        split at ht
        · cases ht
        · cases hday : Date.ofOrdinal (((c.now.shown + _).fdiv 1000000).fdiv 86400).toNat with
          | error e => rw [hday] at ht; cases ht
          | ok d => rw [hday] at ht; cases ht; rfl
      simpa [Timestamp.Recordable, hoffset] using hc
    · cases h

/-- Reading the clock gives the time it shows, and it advances; one that cannot is not read. -/
theorem Session.readClock_yields (s : Session) : match s.clock.advance with
    | .ok clock => Session.readClock.Yields s (.ok s.clock.now) { s with clock }
    | .error e => Session.readClock.Yields s (.error (.clock e)) s := by
  unfold Session.readClock
  cases h : s.clock.advance with
  | ok clock =>
      refine yields_state_bind_iff.2 ?_
      dsimp only
      rw [h]
      refine yields_ofExcept_ok_bind_iff.2 ?_
      exact (yields_modify _ s).bind (yields_pure _ _)
  | error e =>
      refine yields_state_bind_iff.2 ?_
      dsimp only
      rw [h]
      exact (yields_fail (.clock e) s).bind_error

/-! ## Headers -/

namespace Header

variable {h : Header} {user : Option Text} {now : Timestamp}

/-- A header after the stamp of a write: its revision is counted up.  The first write of all is the
creation and has no parent; a later one has the revision before it as its parent. -/
def stamped (user : Option Text) (now : Timestamp) (h : Header) : Header :=
  { h with
    revision := .value (h.revisionNumber + 1)
    parentRevision := .value (h.createdAt.map fun _ => h.revisionNumber)
    createdAt := some (h.createdAt.getD now)
    modifiedAt := some now
    createdBy := if h.createdAt.isNone then .value user else h.createdBy
    updatedBy := .value user }

/-- A revision in order: it is positive, and its parent is missing or the revision before it. -/
def Counted (h : Header) : Prop :=
  ∃ n : Int, 1 ≤ n ∧ h.revision = .value n
    ∧ (h.parentRevision = .value none ∨ h.parentRevision = .value (some (n - 1)))

/-- A regular header is stamped by noting its past and counting up. -/
theorem Regular.countUp?_notePast (r : h.Regular) (user : Option Text) (now : Timestamp) :
    (h.notePast user now).countUp? user now = some (h.stamped user now) := by
  have hrev := r.revision_eq
  cases hcreated : h.createdAt with
  | none => simp [notePast, countUp?, stamped, hcreated, hrev, next?]
  | some t => simp [notePast, countUp?, stamped, hcreated, hrev, next?, asParent]

/-- A stamped header is regular, and its revision is in order. -/
theorem Regular.stamped (r : h.Regular) (user : Option Text) (hnow : now.Recordable) :
    (h.stamped user now).Regular ∧ (h.stamped user now).Counted := by
  have hnonneg := r.revisionNumber_nonneg
  have hcreatedAt : ∀ t ∈ some (h.createdAt.getD now), t.Recordable := by
    intro t ht
    cases hcreated : h.createdAt with
    | none => simp [hcreated] at ht; exact ht ▸ hnow
    | some t' => simp [hcreated] at ht; exact ht ▸ r.createdAt t' hcreated
  have hcreatedBy : ∃ a, (if h.createdAt.isNone then .value user else h.createdBy) = .value a := by
    split
    · exact ⟨user, rfl⟩
    · exact r.createdBy
  have hmodifiedAt : ∀ t ∈ some now, t.Recordable := by simpa using hnow
  refine ⟨⟨r.ident, r.kind, ⟨_, by omega, rfl⟩, ⟨_, rfl⟩, hcreatedAt, hmodifiedAt, hcreatedBy, ⟨_, rfl⟩⟩,
    h.revisionNumber + 1, by omega, rfl, ?_⟩
  cases hcreated : h.createdAt with
  | none => simp [Header.stamped, hcreated]
  | some t => simp [Header.stamped, hcreated]

end Header

/-! ## Items -/

namespace Item

variable {i : Item} {user : Option Text} {now : Timestamp}

/-- An item after the stamp of a write. -/
def stamped (user : Option Text) (now : Timestamp) (i : Item) : Item :=
  { i with header := i.header.stamped user now }

@[simp] theorem stamped_ident : (i.stamped user now).ident = i.ident := rfl

@[simp] theorem stamped_kind : (i.stamped user now).kind = i.kind := rfl

theorem Regular.stamped (r : i.Regular) (user : Option Text) (hnow : now.Recordable) :
    (i.stamped user now).Regular ∧ (i.stamped user now).header.Counted := by
  obtain ⟨hheader, hcounted⟩ := r.header.stamped user hnow
  exact ⟨⟨hheader, r.payload, r.kind⟩, hcounted⟩

/-- A regular item is stamped without failing. -/
theorem Regular.stamp_yields (r : i.Regular) (user : Option Text) (now : Timestamp) :
    (Item.stamp user now).Yields i (.ok ()) (i.stamped user now) := by
  unfold Item.stamp
  refine (yields_modify _ i).bind (yields_state_bind_iff.2 ?_)
  dsimp only
  rw [r.header.countUp?_notePast]
  exact yields_put _ _

end Item

end RecordStore
