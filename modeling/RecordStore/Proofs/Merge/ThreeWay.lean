import RecordStore.Proofs.Codec
import RecordStore.Proofs.Merge.Batch
import RecordStore.Proofs.Merge.Union

/-!
# RecordStore.Proofs.Merge.ThreeWay

Conflicts whose records can be read and belong together (`Sides`).  Such a conflict is settled by the
union of its fields, field by field as it should be (`Sides.resolve_ok`).  A page is handed over exactly
when a field is contested (`Sides.resolve_escalates_iff`), and a batch says of it what settling it came to.
-/

namespace RecordStore

open Procedure

namespace Merge

/-! ## The sides of a conflict -/

/-- The items of a conflict: they are read from its records, and are of its kind and identifier. -/
structure Matching (c : Conflict) (ours theirs : Item) (ancestor : Option Item) : Prop where
  readOurs : (Registry.decodeFound c.ours .bundled).Yields () (.ok ours) ()
  readTheirs : (Registry.decodeFound c.theirs .bundled).Yields () (.ok theirs) ()
  readAncestor : (Registry.decodeIfFound c.ancestor .bundled).Yields () (.ok ancestor) ()
  oursMatches : ours.kind.name = c.kind ∧ ours.ident = c.ident
  theirsMatches : theirs.kind.name = c.kind ∧ theirs.ident = c.ident
  ancestorMatches : ∀ a ∈ ancestor, a.kind.name = c.kind ∧ a.ident = c.ident

/-- The items of a conflict whose sides were created at the same time. -/
structure Sides (c : Conflict) (ours theirs : Item) (ancestor : Option Item) : Prop
    extends Matching c ours theirs ancestor where
  createdTogether : Header.sameTime ours.header.createdAt theirs.header.createdAt = true

section Sides

variable {c : Conflict} {ours theirs : Item} {ancestor : Option Item} {user : Option Text}
  {policy : MergePolicy} {l l' : ChangeList} {r : Except Failure Item}

/-- Payloads of one bundled kind have the same fields. -/
theorem sameSort_of_bundled {p q : Payload} (hp : p.Bundled) (hq : q.Bundled)
    (h : p.kind.name = q.kind.name) : p.body.SameSort q.body := by
  cases hp <;> cases hq
  · rfl
  · exact absurd h (show Kind.page.name ≠ Kind.task.name by decide)
  · exact absurd h (show Kind.task.name ≠ Kind.page.name by decide)
  · rfl

theorem Matching.oneKind (h : Matching c ours theirs ancestor) : OneKind ours theirs ancestor where
  sameSort := by
    have ro := (regular_of_decodeFound h.readOurs).1
    have rt := (regular_of_decodeFound h.readTheirs).1
    refine sameSort_of_bundled ro.payload rt.payload ?_
    rw [← ro.kind, ← rt.kind]
    exact h.oursMatches.1.trans h.theirsMatches.1.symm
  oursBundled := (regular_of_decodeFound h.readOurs).1.payload
  theirsBundled := (regular_of_decodeFound h.readTheirs).1.payload
  ancestorBundled := by
    intro a ha
    have hread := h.readAncestor
    unfold Registry.decodeIfFound at hread
    split at hread
    · obtain ⟨b, _, hb, hpure⟩ := yields_bind_ok_iff.1 hread
      cases ha
      cases (yields_pure_iff.1 hpure).1
      exact (regular_of_decodeItem hb).1.payload
    · cases ha
      cases (yields_pure_iff.1 hread).1

theorem checkSide_yields_ok {σ : Type} {s : σ} {side : Item}
    (h : side.kind.name = c.kind ∧ side.ident = c.ident) : (checkSide c side).Yields s (.ok ()) s := by
  unfold checkSide
  rw [if_pos h]
  exact yields_pure _ _

/-- Once its sides are read and checked, settling a conflict is merging them. -/
theorem Matching.resolve_yields (h : Matching c ours theirs ancestor)
    (hm : (mergeSides user policy c ours theirs ancestor).Yields l r l') :
    (resolve .bundled user policy c).Yields l r l' := by
  unfold resolve
  refine h.readOurs.lift.bind (h.readTheirs.lift.bind (h.readAncestor.lift.bind ?_))
  refine (checkSide_yields_ok h.oursMatches).bind ((checkSide_yields_ok h.theirsMatches).bind ?_)
  cases ancestor with
  | none => exact hm
  | some a => exact (checkSide_yields_ok (h.ancestorMatches a rfl)).bind hm

/-- Writing an item hands nothing over. -/
theorem failsBy_write (i : Item) (op : Operation) :
    (ChangeList.write i op).FailsBy fun f => ∀ e, f ≠ .unresolvable e := by
  intro l f l' hw e
  unfold ChangeList.write at hw
  rcases yields_bind_iff.1 hw with ⟨f', heq, hf⟩ | ⟨blob, _, -, hrest⟩
  · cases heq
    have hbytes := ((yields_lift_iff.1 hf).1.unique i.encode_yields).1
    rintro rfl
    exact neverEscalates_bytes i e hbytes.symm
  · rcases yields_bind_iff.1 hrest with ⟨f', heq, hf⟩ | ⟨change, _, -, happend⟩
    · cases heq
      rintro rfl
      have hmake := (yields_ofExcept_iff.1 hf).1
      unfold Change.make at hmake
      split at hmake <;> cases hmake
    · rcases ChangeList.append_yields_iff.1 happend with ⟨-, hr, -⟩ | ⟨-, -, fault, hr, -⟩
      · cases hr
      · cases hr
        nofun

/-- What merging the sides may come to: the merge fails, or its item is given a header and written,
where nothing is handed over any more. -/
theorem Sides.mergeSides_cases (h : Sides c ours theirs ancestor)
    (hm : (mergeSides user policy c ours theirs ancestor).Yields l r l') :
    (∃ f, r = .error f ∧ (merge policy ours theirs ancestor c).Yields () (.error f) ())
      ∨ ∃ merged, (merge policy ours theirs ancestor c).Yields () (.ok merged) ()
        ∧ ((∃ header, r = .ok { merged with header })
          ∨ ∃ f, r = .error f ∧ ∀ e, f ≠ .unresolvable e) := by
  unfold mergeSides at hm
  dsimp only at hm
  split at hm
  · rcases yields_bind_iff.1 hm with ⟨f, rfl, hf⟩ | ⟨merged, _, hmerged, hm⟩
    · exact .inl ⟨f, rfl, (yields_lift_iff.1 hf).1⟩
    · refine .inr ⟨merged, (yields_lift_iff.1 hmerged).1, ?_⟩
      rcases yields_bind_iff.1 hm with ⟨f, rfl, hf⟩ | ⟨header, _, -, hm⟩
      · have hheader := (yields_ofExcept_iff.1 hf).1
        exact .inr ⟨f, rfl, fun e he => neverEscalates_mergedHeader _ _ _ _ e (he ▸ hheader.symm)⟩
      · rcases yields_bind_iff.1 hm with ⟨f, rfl, hf⟩ | ⟨_, _, -, hm⟩
        · exact .inr ⟨f, rfl, failsBy_write _ _ _ _ _ hf⟩
        · have hpure := yields_report_bind_iff.1 hm
          exact .inl ⟨header, (yields_pure_iff.1 hpure).1⟩
  · next hnot => exact absurd h.createdTogether (by simpa using hnot)

/-- Settling a conflict comes to what merging its sides comes to. -/
theorem Sides.resolve_cases (h : Sides c ours theirs ancestor)
    (hr : (resolve .bundled user policy c).Yields l r l') :
    (∃ f, r = .error f ∧ (merge policy ours theirs ancestor c).Yields () (.error f) ())
      ∨ ∃ merged, (merge policy ours theirs ancestor c).Yields () (.ok merged) ()
        ∧ ((∃ header, r = .ok { merged with header })
          ∨ ∃ f, r = .error f ∧ ∀ e, f ≠ .unresolvable e) := by
  have hm := yields_run (mergeSides user policy c ours theirs ancestor) l
  obtain ⟨rfl, -⟩ := hr.unique (h.resolve_yields hm)
  exact h.mergeSides_cases hm

/-- **What is settled** is merged field by field. -/
theorem Sides.resolve_ok (h : Sides c ours theirs ancestor) {tieBreak : Bool} {i : Item}
    (hr : (resolve .bundled user (.fieldUnion tieBreak) c).Yields l (.ok i) l') :
    ∃ winner, (winner = ours ∨ winner = theirs)
      ∧ (contestedFields ours theirs ancestor ≠ [] → tieBreak = true ∧ pickLater ours theirs c = .ok winner)
      ∧ ∀ key, MergesTo ours.payload.fields theirs.payload.fields (commonFields ancestor)
        winner.payload.fields key (valueOf i.payload.fields key) := by
  rcases h.resolve_cases hr with ⟨f, hf, -⟩ | ⟨merged, hmerged, ⟨header, hi⟩ | ⟨f, hf, -⟩⟩
  · cases hf
  · cases hi
    have hunion : (unionFields tieBreak ours theirs ancestor c).Yields () (.ok merged) () := hmerged
    by_cases hnone : contestedFields ours theirs ancestor = []
    · obtain ⟨payload, hyields, hmerges⟩ :=
        h.oneKind.unionFields_yields c tieBreak (.inl ⟨hnone, rfl⟩)
      cases (hunion.unique hyields).1
      exact ⟨ours, .inl rfl, fun hsome => absurd hnone hsome, hmerges⟩
    · cases tieBreak with
      | false => cases (hunion.unique (unionFields_yields_contested hnone)).1
      | true =>
          cases hpick : pickLater ours theirs c with
          | error e => cases (hunion.unique (unionFields_yields_error hnone hpick)).1
          | ok winner =>
              obtain ⟨payload, hyields, hmerges⟩ :=
                h.oneKind.unionFields_yields c true (.inr ⟨hnone, rfl, hpick⟩)
              cases (hunion.unique hyields).1
              exact ⟨winner, (pickLater_ok hpick).symm, fun _ => ⟨rfl, rfl⟩, hmerges⟩
  · cases hf

/-- **What is handed over** without a tie break: a conflict in which some field is contested, with the
names of the contested fields. -/
theorem Sides.resolve_escalates_iff (h : Sides c ours theirs ancestor)
    (hr : (resolve .bundled user (.fieldUnion false) c).Yields l r l') (e : Escalation) :
    r = .error (.unresolvable e) ↔ contestedFields ours theirs ancestor ≠ []
      ∧ c.escalation .contested (contestedFields ours theirs ancestor) = .unresolvable e := by
  by_cases hnone : contestedFields ours theirs ancestor = []
  · obtain ⟨payload, hyields, -⟩ :=
      h.oneKind.unionFields_yields c false (.inl ⟨hnone, rfl⟩)
    have hmerge : (merge (.fieldUnion false) ours theirs ancestor c).Yields () (.ok { ours with payload }) () :=
      hyields
    have hnot : r ≠ .error (.unresolvable e) := by
      rcases h.resolve_cases hr with ⟨f, -, hf⟩ | ⟨merged, -, ⟨header, rfl⟩ | ⟨f, rfl, hf⟩⟩
      · cases (hmerge.unique hf).1
      · exact nofun
      · exact fun heq => hf e (Except.error.inj heq)
    simp [hnone, hnot]
  · have hmerge : (merge (.fieldUnion false) ours theirs ancestor c).Yields ()
        (.error (c.escalation .contested (contestedFields ours theirs ancestor))) () :=
      unionFields_yields_contested hnone
    rcases h.resolve_cases hr with ⟨f, rfl, hf⟩ | ⟨merged, hmerged, -⟩
    · cases (hmerge.unique hf).1
      simp [hnone]
    · cases (hmerge.unique hmerged).1

end Sides

/-! ## A batch -/

section Batch

/-- The fields of an item stand in its record. -/
theorem valueOf_decode {i : Item} {blob : Bytes} (r : i.Regular) (h : i.bytes = .ok blob) :
    ∃ ms, Record.decode blob = .ok ms
      ∧ ∀ key, Header.isField key = false → valueOf ms key = valueOf i.payload.fields key := by
  rw [r.bytes_eq] at h
  refine ⟨_, r.flat.decode_encode h, fun key hkey => ?_⟩
  rw [valueOf, valueOf, r.flat.get?_sortByKey, Item.get?_record hkey, fields_of_bundled r.payload]

/-- The rule of a page's conflict. -/
theorem Resolution.ComesFrom.policy_page {user : Option Text} {x : Resolution} (h : x.ComesFrom user)
    (hk : x.conflict.kind = Kind.page.name) : x.policy = .fieldUnion false := by
  obtain ⟨e, _, _, he, hpolicy, -⟩ := h
  rw [hk, Registry.get_bundled_page] at he
  cases he
  exact hpolicy

/-- Conflicts of the bundled kinds are merged by the union of their fields. -/
theorem Resolution.ComesFrom.policy_eq {user : Option Text} {x : Resolution} (h : x.ComesFrom user) :
    ∃ tieBreak, x.policy = .fieldUnion tieBreak := by
  obtain ⟨e, _, _, he, hpolicy, -⟩ := h
  rcases Registry.get_bundled_ok he with ⟨-, rfl⟩ | ⟨-, rfl⟩
  · exact ⟨false, hpolicy⟩
  · exact ⟨true, hpolicy⟩

/-- What a batch says to be settled was merged field by field. -/
theorem Resolution.ComesFrom.settled {user : Option Text} {x : Resolution} (hfrom : x.ComesFrom user)
    {ours theirs : Item} {ancestor : Option Item} (h : Sides x.conflict ours theirs ancestor) {i : Item}
    (ho : x.outcome = .ok i) :
    ∃ winner, (winner = ours ∨ winner = theirs)
      ∧ (contestedFields ours theirs ancestor ≠ [] → pickLater ours theirs x.conflict = .ok winner)
      ∧ ∀ key, MergesTo ours.payload.fields theirs.payload.fields (commonFields ancestor)
        winner.payload.fields key (valueOf i.payload.fields key) := by
  obtain ⟨tieBreak, hpolicy⟩ := hfrom.policy_eq
  obtain ⟨e, l, l', -, -, hresolve⟩ := hfrom
  rw [hpolicy, ho] at hresolve
  obtain ⟨winner, hwinner, hpick, hmerges⟩ := h.resolve_ok hresolve
  exact ⟨winner, hwinner, fun hsome => (hpick hsome).2, hmerges⟩

/-- What a batch says of a conflict of pages: it is handed over when some field is contested, with the
names of the contested fields. -/
theorem Resolution.ComesFrom.escalated_page {user : Option Text} {x : Resolution}
    (hfrom : x.ComesFrom user) (hpage : x.conflict.kind = Kind.page.name) {ours theirs : Item}
    {ancestor : Option Item} (h : Sides x.conflict ours theirs ancestor) :
    (x.state = .escalated ↔ contestedFields ours theirs ancestor ≠ [])
      ∧ ∀ e, x.outcome = .error e → e.fields = contestedFields ours theirs ancestor := by
  have hpolicy := hfrom.policy_page hpage
  obtain ⟨e, l, l', -, -, hresolve⟩ := hfrom
  rw [hpolicy] at hresolve
  have hiff := h.resolve_escalates_iff hresolve
  unfold Resolution.state
  cases hout : x.outcome with
  | ok i =>
      rw [hout] at hiff
      refine ⟨?_, nofun⟩
      simp only [reduceCtorEq, false_iff, not_not]
      by_contra hsome
      exact absurd ((hiff _).2 ⟨hsome, rfl⟩) nofun
  | error e =>
      rw [hout] at hiff
      obtain ⟨hsome, hescalation⟩ := (hiff e).1 rfl
      refine ⟨by simp [hsome], fun e' he' => ?_⟩
      cases he'
      cases hescalation
      rfl

/-- A conflict of pages without a contested field is settled. -/
theorem Resolution.ComesFrom.settled_page {user : Option Text} {x : Resolution}
    (hfrom : x.ComesFrom user) (hpage : x.conflict.kind = Kind.page.name) {ours theirs : Item}
    {ancestor : Option Item} (h : Sides x.conflict ours theirs ancestor)
    (hnone : contestedFields ours theirs ancestor = []) : ∃ i, x.outcome = .ok i := by
  have hstate : x.state ≠ .escalated := fun hstate => (hfrom.escalated_page hpage h).1.1 hstate hnone
  unfold Resolution.state at hstate
  cases hout : x.outcome with
  | ok i => exact ⟨i, rfl⟩
  | error e => exact absurd (by rw [hout]) hstate

end Batch

end Merge

end RecordStore
