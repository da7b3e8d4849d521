import RecordStore.Proofs.ChangeList
import RecordStore.Proofs.Item
import RecordStore.Proofs.Merge.Failures

/-!
# RecordStore.Proofs.Merge.Resolve

Settling one conflict.  It adds the change that stores the merged item (`Merged`) to the list, or it
fails and leaves the list alone; what it hands over for a decision is the conflict at hand, with the
bytes of its sides (`resolve_yields`).
-/

namespace RecordStore

open Procedure

namespace Merge

variable {c : Conflict}

/-- A failure that hands over no other conflict than this one. -/
def HandsOver (c : Conflict) (f : Failure) : Prop :=
  ∀ e, f = .unresolvable e →
    e.ident = c.ident ∧ e.ours = c.ours ∧ e.theirs = c.theirs ∧ e.ancestor = c.ancestor

theorem handsOver_escalation (reason : EscalationReason) (fields : List Text) :
    HandsOver c (c.escalation reason fields) := by
  intro e h
  cases h
  exact ⟨rfl, rfl, rfl, rfl⟩

theorem handsOver_of_neverEscalates {α : Type} {x : Except Failure α} (h : NeverEscalates x) :
    ∀ e, x = .error e → HandsOver c e := by
  rintro e rfl x rfl
  exact absurd rfl (h x)

/-! ## Reading the sides -/

theorem failsBy_load (data : Members) : (Payload.load data).FailsBy (HandsOver c) := by
  refine failsBy_state.bind fun p => ?_
  refine (failsBy_ofExcept (handsOver_of_neverEscalates (neverEscalates_loadBody _ _ _))).bind
    fun body => ?_
  refine (failsBy_ofExcept (handsOver_of_neverEscalates (neverEscalates_loadExtras _ _ _))).bind
    fun extras => ?_
  exact failsBy_put _

theorem failsBy_decodePayload (blob : Bytes) : (Payload.decode blob).FailsBy (HandsOver c) := by
  refine (failsBy_ofExcept (handsOver_of_neverEscalates (neverEscalates_decode _))).bind fun ms => ?_
  refine (failsBy_ofExcept (handsOver_of_neverEscalates (neverEscalates_split _))).bind fun parts => ?_
  refine failsBy_state.bind fun p => ?_
  split
  · exact failsBy_load _
  · exact failsBy_fail nofun

theorem failsBy_decodeItem (blob : Bytes) (r : Registry) :
    (Registry.decodeItem blob r).FailsBy (HandsOver c) := by
  refine (failsBy_ofExcept (handsOver_of_neverEscalates (neverEscalates_decode _))).bind fun ms => ?_
  refine (failsBy_ofExcept (handsOver_of_neverEscalates (neverEscalates_split _))).bind fun parts => ?_
  refine (failsBy_ofExcept (handsOver_of_neverEscalates (neverEscalates_get _ _))).bind fun e => ?_
  refine (failsBy_ofExcept (handsOver_of_neverEscalates (neverEscalates_make _ _))).bind fun i => ?_
  refine ((failsBy_decodePayload blob).runOn _).bind fun out => ?_
  exact (failsBy_report _).bind fun _ => failsBy_pure _

theorem failsBy_decodeFound (blob? : Option Bytes) (r : Registry) :
    (Registry.decodeFound blob? r).FailsBy (HandsOver c) := by
  cases blob? with
  | none => exact failsBy_fail nofun
  | some blob => exact failsBy_decodeItem blob r

theorem failsBy_decodeIfFound (blob? : Option Bytes) (r : Registry) :
    (Registry.decodeIfFound blob? r).FailsBy (HandsOver c) := by
  cases blob? with
  | none => exact failsBy_pure _
  | some blob => exact (failsBy_decodeItem blob r).map _

/-! ## Merging the sides -/

/-- The end of a union of fields: the fields are loaded into our payload. -/
def loadInto (ours : Item) (data : Members) : Traced Item := do
  let (_, payload) ← Procedure.runOn ours.payload (Payload.load data)
  return { ours with payload }

theorem failsBy_merge (policy : MergePolicy) (ours theirs : Item) (ancestor : Option Item) :
    (merge policy ours theirs ancestor c).FailsBy (HandsOver c) := by
  have hpick := handsOver_of_neverEscalates (c := c) (neverEscalates_pickLater ours theirs c)
  have hload : ∀ data, (loadInto ours data).FailsBy (HandsOver c) :=
    fun data => ((failsBy_load data).runOn _).bind fun _ => failsBy_pure _
  cases policy with
  | lastWrite => exact failsBy_ofExcept hpick
  | escalate => exact failsBy_fail (handsOver_escalation _ _)
  | fieldUnion tieBreak =>
      change (unionFields tieBreak ours theirs ancestor c).FailsBy _
      unfold unionFields
      dsimp only
      split
      · exact (failsBy_pure _).bind fun decided => hload _
      · split
        · exact (failsBy_ofExcept hpick).bind fun winner => (failsBy_report _).bind fun _ =>
            (failsBy_pure _).bind fun decided => hload _
        · exact (failsBy_fail (handsOver_escalation _ _)).bind fun decided => hload _

/-- A payload of a bundled kind stays one when fields are loaded into it. -/
theorem bundled_of_load {p p' : Payload} (hp : p.Bundled) {data : Members}
    (h : (Payload.load data).Yields p (.ok ()) p') : p'.Bundled ∧ p'.kind = p.kind := by
  cases hp with
  | page old =>
      obtain ⟨hr, hp'⟩ := h.unique (load_yields .page (.page old) data)
      cases hbody : Payload.loadBody .page data (.page old) with
      | error f => rw [hbody] at hr; cases hr
      | ok body =>
          obtain ⟨name, text, -, -, rfl⟩ := loadBody_page_iff.1 hbody
          rw [hp', hbody]
          exact ⟨.page _, rfl⟩
  | task old =>
      obtain ⟨hr, hp'⟩ := h.unique (load_yields .task (.task old) data)
      cases hbody : Payload.loadBody .task data (.task old) with
      | error f => rw [hbody] at hr; cases hr
      | ok body =>
          obtain ⟨name, text, context, status, deferral, -, -, -, -, -, rfl⟩ :=
            loadBody_task_iff.1 hbody
          rw [hp', hbody]
          exact ⟨.task _, rfl⟩

/-- Fields are loaded into the payload, and the header stays. -/
theorem exists_of_loadInto {ours i : Item} {data : Members}
    (h : (loadInto ours data).Yields () (.ok i) ()) : i.header = ours.header
      ∧ (Payload.load data).Yields ours.payload (.ok ()) i.payload := by
  obtain ⟨⟨_, payload⟩, _, hrun, hpure⟩ := yields_bind_ok_iff.1 h
  cases (yields_pure_iff.1 hpure).1
  exact ⟨rfl, hrun.of_runOn⟩

theorem regular_of_loadInto {ours i : Item} (r : ours.Regular) {data : Members}
    (h : (loadInto ours data).Yields () (.ok i) ()) : i.Regular := by
  obtain ⟨hheader, hload⟩ := exists_of_loadInto h
  obtain ⟨hbundled, hkind⟩ := bundled_of_load r.payload hload
  exact ⟨hheader ▸ r.header, hbundled, by rw [hheader, hkind]; exact r.kind⟩

theorem pickLater_ok {ours theirs i : Item} (h : pickLater ours theirs c = .ok i) :
    i = theirs ∨ i = ours := by
  obtain ⟨later, -, h⟩ := Except.bind_eq_ok_iff.1 h
  cases later with
  | true => exact .inl (Except.ok.inj h).symm
  | false => exact .inr (Except.ok.inj h).symm

/-- A merged item is the side that was written later, or ours with other fields. -/
theorem exists_of_merge {policy : MergePolicy} {ours theirs i : Item} {ancestor : Option Item}
    (h : (merge policy ours theirs ancestor c).Yields () (.ok i) ()) :
    pickLater ours theirs c = .ok i ∨ ∃ data, (loadInto ours data).Yields () (.ok i) () := by
  cases policy with
  | lastWrite => exact .inl (yields_ofExcept_iff.1 h).1.symm
  | escalate => cases (yields_fail_iff.1 h).1
  | fieldUnion tieBreak =>
      change (unionFields tieBreak ours theirs ancestor c).Yields _ _ _ at h
      unfold unionFields at h
      dsimp only at h
      split at h
      · obtain ⟨_, _, -, h⟩ := yields_bind_ok_iff.1 h
        exact .inr ⟨_, h⟩
      · split at h
        · obtain ⟨_, _, -, h⟩ := yields_bind_ok_iff.1 h
          obtain ⟨_, _, -, h⟩ := yields_bind_ok_iff.1 h
          obtain ⟨_, _, -, h⟩ := yields_bind_ok_iff.1 h
          exact .inr ⟨_, h⟩
        · obtain ⟨_, _, hfail, -⟩ := yields_bind_ok_iff.1 h
          cases (yields_fail_iff.1 hfail).1

/-- A merged item has the header of one of its sides. -/
theorem header_of_merge {policy : MergePolicy} {ours theirs i : Item} {ancestor : Option Item}
    (h : (merge policy ours theirs ancestor c).Yields () (.ok i) ()) :
    i.header = ours.header ∨ i.header = theirs.header := by
  rcases exists_of_merge h with h | ⟨data, h⟩
  · rcases pickLater_ok h with rfl | rfl
    · exact .inr rfl
    · exact .inl rfl
  · exact .inl (exists_of_loadInto h).1

/-- The merge of two regular items is regular. -/
theorem regular_of_merge {policy : MergePolicy} {ours theirs i : Item} {ancestor : Option Item}
    (ro : ours.Regular) (rt : theirs.Regular)
    (h : (merge policy ours theirs ancestor c).Yields () (.ok i) ()) : i.Regular := by
  rcases exists_of_merge h with h | ⟨data, h⟩
  · rcases pickLater_ok h with rfl | rfl
    · exact rt
    · exact ro
  · exact regular_of_loadInto ro h

/-! ## The header of a merged item -/

theorem laterTime_ok {a b t : Option Timestamp} (h : laterTime a b = .ok t) : t = a ∨ t = b := by
  unfold laterTime at h
  split at h
  · cases h; exact .inl rfl
  · cases h; exact .inl rfl
  · cases h; exact .inr rfl
  · split at h
    · cases h
    · cases h; exact .inr rfl
    · cases h; exact .inl rfl

theorem mergedBy_value (user : Option Text) {old : Attribute (Option Text)} (h : ∃ a, old = .value a) :
    ∃ a, mergedBy user old = .value a := by
  unfold mergedBy
  split
  · exact ⟨_, rfl⟩
  · exact h

/-- The header of a merged item is regular, and follows a revision of one of the sides. -/
theorem regular_of_mergedHeader {ours theirs merged h : Header} {user : Option Text}
    (ro : ours.Regular) (rt : theirs.Regular) (hm : merged = ours ∨ merged = theirs)
    (hh : mergedHeader ours theirs user merged = .ok h) :
    h.Regular ∧ h.kind = merged.kind ∧ h.ident = merged.ident
      ∧ ∃ n : Int, 0 ≤ n ∧ h.parentRevision = .value (some n) ∧ h.revision = .value (n + 1) := by
  obtain ⟨t, ht, heq⟩ := Except.bind_eq_ok_iff.1 hh
  cases heq
  have hparent : 0 ≤ max ours.revisionNumber theirs.revisionNumber :=
    Int.le_trans ro.revisionNumber_nonneg (Int.le_max_left _ _)
  have rm : merged.Regular := by
    rcases hm with rfl | rfl
    · exact ro
    · exact rt
  have htime : ∀ x ∈ t, x.Recordable := by
    rcases laterTime_ok ht with rfl | rfl
    · exact ro.modifiedAt
    · exact rt.modifiedAt
  exact ⟨⟨rm.ident, rm.kind, ⟨_, Int.le_add_one hparent, rfl⟩, ⟨_, rfl⟩, rm.createdAt, htime,
    rm.createdBy, mergedBy_value user rm.updatedBy⟩, rfl, rfl, _, hparent, rfl, rfl⟩

/-! ## One conflict -/

/-- What a conflict is settled by: an item of its kind and its identifier, as it is read from a
record, that follows a revision. -/
structure Merged (c : Conflict) (i : Item) : Prop where
  regular : i.Regular
  recorded : i = i.recorded
  kind : i.kind.name = c.kind
  ident : i.ident = c.ident
  revision : ∃ n : Int, 0 ≤ n ∧ i.header.parentRevision = .value (some n)
    ∧ i.header.revision = .value (n + 1)

theorem checkSide_yields {σ : Type} {s s' : σ} {side : Item} {r : Except Failure Unit}
    (h : (checkSide c side).Yields s r s') : s' = s ∧
      ((r = .ok () ∧ side.kind.name = c.kind ∧ side.ident = c.ident) ∨ ∃ e, r = .error e ∧ HandsOver c e) := by
  unfold checkSide at h
  split at h
  · next hside =>
    obtain ⟨rfl, rfl⟩ := yields_pure_iff.1 h
    exact ⟨rfl, .inl ⟨rfl, hside⟩⟩
  · obtain ⟨rfl, rfl⟩ := yields_fail_iff.1 h
    exact ⟨rfl, .inr ⟨_, rfl, handsOver_escalation _ _⟩⟩

theorem regular_of_decodeFound {blob? : Option Bytes} {i : Item}
    (h : (Registry.decodeFound blob? .bundled).Yields () (.ok i) ()) : i.Regular ∧ i = i.recorded := by
  cases blob? with
  | none => cases (yields_fail_iff.1 h).1
  | some blob => exact regular_of_decodeItem h

/-- What settling a conflict may come to: the merged item is added to the list, or the list stays as
it is. -/
def Settles (c : Conflict) (l : ChangeList) (r : Except Failure Item) (l' : ChangeList) : Prop :=
  (∃ i blob, r = .ok i ∧ Merged c i ∧ i.bytes = .ok blob ∧ l.Takes c.ident
      ∧ l' = l.added (.update c.kind c.ident blob))
    ∨ ∃ e, r = .error e ∧ l' = l ∧ HandsOver c e

section Resolve

variable {l l' : ChangeList} {user : Option Text}

/-- A part that only looks fails and leaves the list alone, or it comes to its end and what follows
goes on from the same list. -/
theorem settles_of_lift {α : Type} {p : Traced α} (hp : p.FailsBy (HandsOver c))
    {f : α → Procedure ChangeList Item} {r : Except Failure Item}
    (h : (p.lift >>= f).Yields l r l')
    (hf : ∀ a, p.Yields () (.ok a) () → (f a).Yields l r l' → Settles c l r l') : Settles c l r l' := by
  rcases yields_bind_iff.1 h with ⟨e, rfl, he⟩ | ⟨a, s₁, ha, hrest⟩
  · obtain ⟨hfail, rfl⟩ := yields_lift_iff.1 he
    exact .inr ⟨e, rfl, rfl, hp _ _ _ hfail⟩
  · obtain ⟨hok, rfl⟩ := yields_lift_iff.1 ha
    exact hf a hok hrest

/-- A side is checked, and what follows goes on from the same list. -/
theorem settles_of_checkSide {side : Item} {f : Unit → Procedure ChangeList Item}
    {r : Except Failure Item} (h : (checkSide c side >>= f).Yields l r l')
    (hf : side.kind.name = c.kind → side.ident = c.ident → (f ()).Yields l r l' → Settles c l r l') :
    Settles c l r l' := by
  rcases yields_bind_iff.1 h with ⟨e, rfl, he⟩ | ⟨a, s₁, ha, hrest⟩
  · obtain ⟨rfl, ⟨hr, -⟩ | ⟨e', heq, hover⟩⟩ := checkSide_yields he
    · cases hr
    · cases heq
      exact .inr ⟨e, rfl, rfl, hover⟩
  · obtain ⟨rfl, ⟨-, hside⟩ | ⟨e', heq, -⟩⟩ := checkSide_yields ha
    · exact hf hside.1 hside.2 hrest
    · cases heq

/-- The merged item is written as a change of the conflict's record. -/
theorem settles_of_write {i : Item} (hm : Merged c i) {f : Unit → Procedure ChangeList Item}
    (hf : ∀ l, (f ()).Yields l (.ok i) l) {r : Except Failure Item}
    (h : (ChangeList.write i .update >>= f).Yields l r l') : Settles c l r l' := by
  cases hb : i.bytes with
  | error e =>
      obtain ⟨rfl, rfl⟩ := h.unique (ChangeList.write_yields_error hb).bind_error
      exact .inr ⟨e, rfl, rfl, handsOver_of_neverEscalates (neverEscalates_bytes i) e hb⟩
  | ok blob =>
      have hc : Change.make .update i.kind.name i.ident (some blob) = .ok (.update c.kind c.ident blob) := by
        rw [hm.kind, hm.ident]
        rfl
      have happend := yields_run (ChangeList.append (.update c.kind c.ident blob)) l
      have hwrite := ChangeList.write_yields hb hc happend
      rcases ChangeList.append_yields_iff.1 happend with ⟨ht, hr, hl⟩ | ⟨-, hl, fault, hr, -⟩
      · rw [hr, hl] at hwrite
        obtain ⟨rfl, rfl⟩ := h.unique (hwrite.bind (hf _))
        exact .inl ⟨i, blob, rfl, hm, hb, ht, rfl⟩
      · rw [hr, hl] at hwrite
        obtain ⟨rfl, rfl⟩ := h.unique hwrite.bind_error
        exact .inr ⟨_, rfl, rfl, nofun⟩

/-- A merged item with its header settles the conflict of its sides. -/
theorem merged_of_mergedHeader {ours theirs merged : Item} {header : Header}
    (ro : ours.Regular ∧ ours = ours.recorded) (rt : theirs.Regular ∧ theirs = theirs.recorded)
    (ho : ours.kind.name = c.kind ∧ ours.ident = c.ident)
    (ht : theirs.kind.name = c.kind ∧ theirs.ident = c.ident) (rm : merged.Regular)
    (hheader : merged.header = ours.header ∨ merged.header = theirs.header)
    (hmh : mergedHeader ours.header theirs.header user merged.header = .ok header) :
    Merged c { merged with header } := by
  obtain ⟨rh, hkind, hident, hrevision⟩ :=
    regular_of_mergedHeader ro.1.header rt.1.header hheader hmh
  have hside : merged.header = merged.header.recorded ∧ merged.kind.name = c.kind
      ∧ merged.ident = c.ident := by
    rcases hheader with heq | heq
    · rw [heq, Item.kind, Item.ident, heq]
      exact ⟨congrArg Item.header ro.2, ho⟩
    · rw [heq, Item.kind, Item.ident, heq]
      exact ⟨congrArg Item.header rt.2, ht⟩
  refine ⟨⟨rh, rm.payload, ?_⟩, ?_, ?_, ?_, hrevision⟩
  · rw [hkind]
    exact rm.kind
  · have hword : header = header.recorded := by
      rw [Header.eq_recorded_iff, hkind]
      exact Header.eq_recorded_iff.1 hside.1
    rw [Item.recorded, ← hword]
  · rw [Item.kind, hkind]
    exact hside.2.1
  · rw [Item.ident, hident]
    exact hside.2.2

/-- What is done once the sides of a conflict are read and checked. -/
def mergeSides (user : Option Text) (policy : MergePolicy) (c : Conflict) (ours theirs : Item)
    (ancestor : Option Item) : Procedure ChangeList Item := do
  unless Header.sameTime ours.header.createdAt theirs.header.createdAt do
    Procedure.fail (c.escalation .createdSeparately ["created_at"])
  let merged ← (merge policy ours theirs ancestor c).lift
  let header ← Procedure.ofExcept (mergedHeader ours.header theirs.header user merged.header)
  let merged : Item := { merged with header }
  ChangeList.write merged .update
  Procedure.report ⟨.info, "registry", "conflict resolved", [("ident", c.ident.quoted),
    ("policy", policy.name.quoted), ("revision", header.revisionJson.display)]⟩
  return merged

theorem settles_of_mergeSides {policy : MergePolicy} {ours theirs : Item} {ancestor : Option Item}
    (ro : ours.Regular ∧ ours = ours.recorded) (rt : theirs.Regular ∧ theirs = theirs.recorded)
    (ho : ours.kind.name = c.kind ∧ ours.ident = c.ident)
    (ht : theirs.kind.name = c.kind ∧ theirs.ident = c.ident) {r : Except Failure Item}
    (h : (mergeSides user policy c ours theirs ancestor).Yields l r l') : Settles c l r l' := by
  unfold mergeSides at h
  dsimp only at h
  split at h
  · refine settles_of_lift (failsBy_merge policy ours theirs ancestor) h fun merged hmerged h => ?_
    have rm := regular_of_merge ro.1 rt.1 hmerged
    have hheader := header_of_merge hmerged
    cases hmh : mergedHeader ours.header theirs.header user merged.header with
    | error e =>
        rw [hmh] at h
        obtain ⟨rfl, rfl⟩ := h.unique (yields_fail e l).bind_error
        exact .inr ⟨e, rfl, rfl,
          handsOver_of_neverEscalates (neverEscalates_mergedHeader _ _ _ _) e hmh⟩
    | ok header =>
        rw [hmh] at h
        have h := yields_ofExcept_ok_bind_iff.1 h
        have hm : Merged c { merged with header } := merged_of_mergedHeader ro rt ho ht rm hheader hmh
        refine settles_of_write hm ?_ h
        exact fun l => (yields_report _ l).bind (yields_pure _ l)
  · obtain ⟨rfl, rfl⟩ := h.unique (yields_fail _ l).bind_error
    exact .inr ⟨_, rfl, rfl, handsOver_escalation _ _⟩

/-- **One conflict.** Settling a conflict adds the change of its merged item to the list, or fails
and leaves the list alone; it hands over no other conflict. -/
theorem settles_of_resolve {policy : MergePolicy} {r : Except Failure Item}
    (h : (resolve .bundled user policy c).Yields l r l') : Settles c l r l' := by
  unfold resolve at h
  refine settles_of_lift (failsBy_decodeFound _ _) h fun ours hours h => ?_
  refine settles_of_lift (failsBy_decodeFound _ _) h fun theirs htheirs h => ?_
  refine settles_of_lift (failsBy_decodeIfFound _ _) h fun ancestor _ h => ?_
  refine settles_of_checkSide h fun hkind hident h => ?_
  refine settles_of_checkSide h fun hkind' hident' h => ?_
  have hsides : ∀ {r}, (mergeSides user policy c ours theirs ancestor).Yields l r l' →
      Settles c l r l' :=
    settles_of_mergeSides (regular_of_decodeFound hours) (regular_of_decodeFound htheirs)
      ⟨hkind, hident⟩ ⟨hkind', hident'⟩
  cases ancestor with
  | none => exact hsides h
  | some side => exact settles_of_checkSide h fun _ _ h => hsides h

end Resolve

end Merge

end RecordStore
