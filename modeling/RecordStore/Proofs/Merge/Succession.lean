import RecordStore.Proofs.Merge.Order
import RecordStore.Proofs.Merge.Symmetry

/-!
# RecordStore.Proofs.Merge.Succession

A merged item comes after both of its sides (`Succeeds`).  Its revision follows the higher one of the
two, so that it was written later than either side in every conflict in which they might meet
(`pickLater_of_revision_lt`); its time is the latest of theirs (`Latest`).  Settling a conflict puts the
record of such an item into the list of changes, or it fails and leaves the list as it is
(`resolve_succeeds`), whatever the registered kinds and the rule for merging are.
-/

namespace RecordStore

open Procedure

namespace Merge

variable {c : Conflict} {ours theirs i : Item} {l l' : ChangeList}

/-! ## Times -/

/-- The latest of two times that may be missing: one of the two, before neither of them, and missing
only when both are. -/
structure Latest (a b t : Option Timestamp) : Prop where
  of_sides : t = a ∨ t = b
  not_before : ∀ x, x ∈ a ∨ x ∈ b → ∃ y ∈ t, ∃ o, y.compare? x = some o ∧ o ≠ .lt

theorem latest_of_laterTime {a b t : Option Timestamp} (h : laterTime a b = .ok t) : Latest a b t := by
  refine ⟨laterTime_ok h, fun x hx => ?_⟩
  have hself (y : Timestamp) : ∃ o, y.compare? y = some o ∧ o ≠ .lt := ⟨.eq, y.compare?_self, nofun⟩
  unfold laterTime at h
  split at h
  · simp at hx
  · cases h
    obtain rfl : _ = x := by simpa using hx
    exact ⟨_, rfl, hself _⟩
  · cases h
    obtain rfl : _ = x := by simpa using hx
    exact ⟨_, rfl, hself _⟩
  · next a b =>
    have hsides : a = x ∨ b = x := by simpa using hx
    split at h
    · cases h
    · next hgt =>
      cases h
      rcases hsides with rfl | rfl
      · exact ⟨b, rfl, .gt, hgt, nofun⟩
      · exact ⟨b, rfl, hself b⟩
    · next o hgt ho =>
      cases h
      rcases hsides with rfl | rfl
      · exact ⟨a, rfl, hself a⟩
      · refine ⟨a, rfl, o.swap, ?_, ?_⟩
        · rw [Timestamp.compare?_swap, ho]
          rfl
        · intro hlt
          exact hgt (by simpa using congrArg Ordering.swap hlt)

/-! ## Revisions -/

/-- The higher revision was written later, whatever the conflict is and on whichever side it stands. -/
theorem pickLater_of_revision_lt {a b : Item}
    (h : b.header.revisionNumber < a.header.revisionNumber) (c : Conflict) :
    pickLater a b c = .ok a ∧ pickLater b a c = .ok a := by
  have hne : a.header.revisionNumber ≠ b.header.revisionNumber := by omega
  constructor
  · unfold pickLater writtenLater
    rw [if_pos hne.symm, decide_eq_false (by omega)]
    rfl
  · unfold pickLater writtenLater
    rw [if_pos hne, decide_eq_true h]
    rfl

/-! ## The merged item -/

/-- An item of a conflict's kind and identifier that comes after both sides. -/
structure Succeeds (c : Conflict) (ours theirs i : Item) : Prop where
  kind : i.kind.name = c.kind
  ident : i.ident = c.ident
  createdAt : ∀ side ∈ [ours, theirs], Header.sameTime i.header.createdAt side.header.createdAt = true
  revision : ∃ m n, ours.header.revision = .value m ∧ theirs.header.revision = .value n
    ∧ i.header.parentRevision = .value (some (max m n)) ∧ i.header.revision = .value (max m n + 1)
  modifiedAt : Latest ours.header.modifiedAt theirs.header.modifiedAt i.header.modifiedAt
  preferred : ∀ side ∈ [ours, theirs], ∀ c, pickLater i side c = .ok i ∧ pickLater side i c = .ok i

/-- A merged item with its header succeeds the sides. -/
theorem succeeds_of_mergedHeader {user : Option Text} {merged : Item} {header : Header}
    (ro : ours.header.Regular) (rt : theirs.header.Regular)
    (ho : ours.kind.name = c.kind ∧ ours.ident = c.ident)
    (ht : theirs.kind.name = c.kind ∧ theirs.ident = c.ident)
    (hcreated : Header.sameTime ours.header.createdAt theirs.header.createdAt = true)
    (hheader : merged.header = ours.header ∨ merged.header = theirs.header)
    (hmh : mergedHeader ours.header theirs.header user merged.header = .ok header) :
    Succeeds c ours theirs { merged with header } := by
  obtain ⟨t, hlater, heq⟩ := Except.bind_eq_ok_iff.1 hmh
  cases heq
  have hside : merged.kind.name = c.kind ∧ merged.ident = c.ident := by
    unfold Item.kind Item.ident at *
    rcases hheader with heq | heq
    · rw [heq]; exact ho
    · rw [heq]; exact ht
  refine ⟨hside.1, hside.2, ?_, ?_, latest_of_laterTime hlater, ?_⟩
  · rw [List.forall_mem_cons, List.forall_mem_singleton]
    rcases hheader with heq | heq
    · exact ⟨by rw [heq]; exact Item.sameTime_self _, by rw [heq]; exact hcreated⟩
    · exact ⟨by rw [heq, Header.sameTime_comm]; exact hcreated, by rw [heq]; exact Item.sameTime_self _⟩
  · exact ⟨_, _, ro.revision_eq, rt.revision_eq, rfl, rfl⟩
  · rw [List.forall_mem_cons, List.forall_mem_singleton]
    have hrevision : ∀ n, n ≤ max ours.header.revisionNumber theirs.header.revisionNumber →
        n < max ours.header.revisionNumber theirs.header.revisionNumber + 1 := fun n => Int.lt_add_one_of_le
    exact ⟨pickLater_of_revision_lt (hrevision _ (Int.le_max_left _ _)),
      pickLater_of_revision_lt (hrevision _ (Int.le_max_right _ _))⟩

/-! ## Settling a conflict -/

section Resolve

variable {registry : Registry} {user : Option Text} {policy : MergePolicy}

/-- The header of a side is read from its record. -/
theorem regular_header_of_decodeFound {blob? : Option Bytes}
    (h : (registry.decodeFound blob?).Yields () (.ok i) ()) : i.header.Regular := by
  cases blob? with
  | none => cases (yields_fail_iff.1 h).1
  | some blob =>
      obtain ⟨ms, data, -, hs⟩ := split_of_decodeItem h
      exact (Header.regular_of_ofMembers (header_of_split hs).1).1

section Steps

variable {α β : Type} {Q : β → ChangeList → Prop}

/-- What comes behind a look at something else may use what was seen. -/
theorem ensures_lift_bind {P : ChangeList → Prop} {p : Traced α} {f : α → Procedure ChangeList β}
    (hf : ∀ a, p.Yields () (.ok a) () → (f a).Ensures P Q P) : (p.lift >>= f).Ensures P Q P := by
  intro s r s' hs h
  rcases yields_bind_iff.1 h with ⟨e, rfl, he⟩ | ⟨a, s₁, ha, hrest⟩
  · obtain ⟨-, rfl⟩ := yields_lift_iff.1 he
    exact hs
  · obtain ⟨hok, rfl⟩ := yields_lift_iff.1 ha
    exact hf a hok s₁ r s' hs hrest

/-- What comes behind a check of a side may use that the side belongs to the conflict. -/
theorem ensures_checkSide_bind {P : ChangeList → Prop} {side : Item}
    {f : Unit → Procedure ChangeList β}
    (hf : side.kind.name = c.kind → side.ident = c.ident → (f ()).Ensures P Q P) :
    (checkSide c side >>= f).Ensures P Q P := by
  intro s r s' hs h
  rcases yields_bind_iff.1 h with ⟨e, rfl, he⟩ | ⟨a, s₁, ha, hrest⟩
  · obtain ⟨rfl, -⟩ := checkSide_yields he
    exact hs
  · obtain ⟨rfl, ⟨-, hside⟩ | ⟨e', heq, -⟩⟩ := checkSide_yields ha
    · exact hf hside.1 hside.2 s₁ r s' hs hrest
    · cases heq

end Steps

/-- What a list gains by an item: one change, that stores the item's record. -/
def Gains (c : Conflict) (l : ChangeList) (i : Item) (l' : ChangeList) : Prop :=
  ∃ blob, i.bytes = .ok blob ∧ l.Takes c.ident ∧ l' = l.added (.update c.kind c.ident blob)

theorem ensures_write_gains (hkind : i.kind.name = c.kind) (hident : i.ident = c.ident) :
    (ChangeList.write i .update).Ensures (· = l) (fun _ l' => Gains c l i l') (· = l) := by
  refine ensures_of_yields ?_
  rintro l rfl
  cases hb : i.bytes with
  | error e => exact ⟨_, _, ChangeList.write_yields_error hb, rfl⟩
  | ok blob =>
      have hc : Change.make .update i.kind.name i.ident (some blob)
          = .ok (.update c.kind c.ident blob) := by
        rw [hkind, hident]
        rfl
      have happend := yields_run (ChangeList.append (.update c.kind c.ident blob)) l
      refine ⟨_, _, ChangeList.write_yields hb hc happend, ?_⟩
      rcases ChangeList.append_yields_iff.1 happend with ⟨ht, hr, hl⟩ | ⟨-, hl, fault, hr, -⟩
      · rw [hr, hl]
        exact ⟨blob, hb, ht, rfl⟩
      · rw [hr, hl]

/-- What settles a conflict: an item that succeeds both sides, as they are read from their records, and
that the list gains. -/
def Settled (registry : Registry) (c : Conflict) (l : ChangeList) (i : Item) (l' : ChangeList) : Prop :=
  ∃ ours theirs, (registry.decodeFound c.ours).Yields () (.ok ours) ()
    ∧ (registry.decodeFound c.theirs).Yields () (.ok theirs) ()
    ∧ Succeeds c ours theirs i ∧ Gains c l i l'

/-- Merging two sides that belong to the conflict settles it, or fails and leaves the list alone. -/
theorem ensures_mergeSides {ancestor : Option Item}
    (hours : (registry.decodeFound c.ours).Yields () (.ok ours) ())
    (htheirs : (registry.decodeFound c.theirs).Yields () (.ok theirs) ())
    (ho : ours.kind.name = c.kind ∧ ours.ident = c.ident)
    (ht : theirs.kind.name = c.kind ∧ theirs.ident = c.ident) :
    (mergeSides user policy c ours theirs ancestor).Ensures (· = l) (Settled registry c l) (· = l) := by
  unfold mergeSides
  dsimp only
  split
  · next hcreated =>
    refine ensures_lift_bind fun merged hmerged => ensures_ofExcept_bind (fun header hmh => ?_)
      fun _ h => h
    have hsucceeds : Succeeds c ours theirs { merged with header } :=
      succeeds_of_mergedHeader (regular_header_of_decodeFound hours)
        (regular_header_of_decodeFound htheirs) ho ht hcreated (header_of_merge hmerged) hmh
    refine (ensures_write_gains hsucceeds.kind hsucceeds.ident).bind fun _ => ensures_of_yields ?_
    intro l' hl'
    exact ⟨_, l', (yields_report _ l').bind (yields_pure _ l'), ours, theirs, hours, htheirs, hsucceeds, hl'⟩
  · refine ensures_of_yields ?_
    rintro l rfl
    exact ⟨_, l, (yields_fail _ l).bind_error, rfl⟩

/-- **Succession.** Whatever kinds are registered, whatever the rule for merging and the records of the
conflict are: a conflict is settled, by an item that succeeds both sides and that the list gains as one
change, or settling it fails and the list stays as it is. -/
theorem resolve_succeeds (registry : Registry) (user : Option Text) (policy : MergePolicy)
    (c : Conflict) (l : ChangeList) :
    (resolve registry user policy c).Ensures (· = l) (Settled registry c l) (· = l) := by
  unfold resolve
  refine ensures_lift_bind fun ours hours => ensures_lift_bind fun theirs htheirs =>
    ensures_lift_bind fun ancestor _ => ensures_checkSide_bind fun hkind hident =>
    ensures_checkSide_bind fun hkind' hident' => ?_
  have hsides : (mergeSides user policy c ours theirs ancestor).Ensures (· = l) (Settled registry c l)
      (· = l) := ensures_mergeSides hours htheirs ⟨hkind, hident⟩ ⟨hkind', hident'⟩
  cases ancestor with
  | none => exact hsides
  | some side => exact ensures_checkSide_bind fun _ _ => hsides

end Resolve

/-- Two tasks that were never written are settled by a first revision. -/
theorem resolve_succeeds_creators : ∃ i l', (resolve .bundled none (.fieldUnion true)
      (createdConflict "ann" "bob")).Yields {} (.ok i) l'
    ∧ i.header.revision = .value 1 ∧ i.header.modifiedAt = none ∧ l'.changes.length = 1 := by
  obtain ⟨i, hi⟩ := (creates_ann.settles_iff creates_bob).2 (Text.plain_ofString "ann")
  have hrun := yields_run (resolve .bundled none (.fieldUnion true) (createdConflict "ann" "bob")) {}
  rw [hi] at hrun
  have hmatching := creates_ann.matching creates_bob
  obtain ⟨ours, theirs, hours, htheirs, hsucceeds, blob, -, -, hl⟩ :=
    resolve_succeeds .bundled none (.fieldUnion true) _ {} _ _ _ rfl hrun
  cases (hours.unique hmatching.readOurs).1
  cases (htheirs.unique hmatching.readTheirs).1
  obtain ⟨m, n, hm, hn, -, hrevision⟩ := hsucceeds.revision
  cases hm
  cases hn
  refine ⟨i, _, hrun, hrevision, ?_, by rw [hl]; rfl⟩
  rcases hsucceeds.modifiedAt.of_sides with h | h <;> exact h

end Merge

end RecordStore
