import RecordStore.Proofs.Merge.ThreeWay

/-!
# RecordStore.Proofs.Merge.Settlement

What settles a conflict does not depend on what else is merged.  Settling a conflict is a step
without a state, its `settlement`, after which the list takes the record of the merged item or
refuses it (`resolve_eq`).  When the records of the conflict can be read and belong to it, the
settlement is the one of its sides (`Matching.settlement_yields`).
-/

namespace RecordStore

open Procedure

/-! ## Steps without a state -/

namespace Traced

variable {σ α β : Type}

/-- A sequence of steps without a state is one on any state. -/
theorem lift_bind (p : Traced α) (f : α → Traced β) :
    (Traced.lift (p >>= f) : Procedure σ β) = Traced.lift p >>= fun a => Traced.lift (f a) := by
  funext s
  change Traced.lift (p >>= f) s = andThen ⟨(p ()).result, s, (p ()).events⟩ _
  cases hr : (p ()).result with
  | error e => simp [Traced.lift, bind, andThen, hr]
  | ok a => simp [Traced.lift, bind, andThen, hr]

theorem lift_pure (a : α) : (Traced.lift (pure a) : Procedure σ α) = pure a := rfl

theorem lift_ofExcept (x : Except Failure α) :
    (Traced.lift (Procedure.ofExcept x) : Procedure σ α) = Procedure.ofExcept x := by
  cases x <;> rfl

end Traced

namespace Merge

variable {c : Conflict} {user : Option Text} {policy : MergePolicy} {ours theirs : Item}
  {ancestor : Option Item} {l l' : ChangeList}

/-! ## Settling without a list -/

/-- The merged item of two sides, with the bytes of its record. -/
def uniteSides (user : Option Text) (policy : MergePolicy) (c : Conflict) (ours theirs : Item)
    (ancestor : Option Item) : Traced (Item × Bytes) := do
  unless Header.sameTime ours.header.createdAt theirs.header.createdAt do
    Procedure.fail (c.escalation .createdSeparately ["created_at"])
  let merged ← merge policy ours theirs ancestor c
  let header ← Procedure.ofExcept (mergedHeader ours.header theirs.header user merged.header)
  let merged : Item := { merged with header }
  let blob ← merged.encode
  return (merged, blob)

/-- What settles a conflict: the merged item, with the bytes of its record. -/
def settlement (user : Option Text) (policy : MergePolicy) (c : Conflict) : Traced (Item × Bytes) := do
  let ours ← Registry.bundled.decodeFound c.ours
  let theirs ← Registry.bundled.decodeFound c.theirs
  let ancestor ← Registry.bundled.decodeIfFound c.ancestor
  checkSide c ours
  checkSide c theirs
  match ancestor with
  | some side => checkSide c side
  | none => pure ()
  uniteSides user policy c ours theirs ancestor

/-- Put the record of a merged item into the list. -/
def enlist (policy : MergePolicy) (c : Conflict) (merged : Item × Bytes) :
    Procedure ChangeList Item := do
  let (i, blob) := merged
  ChangeList.append (.update i.kind.name i.ident blob)
  Procedure.report ⟨.info, "registry", "conflict resolved", [("ident", c.ident.quoted),
    ("policy", policy.name.quoted), ("revision", i.header.revisionJson.display)]⟩
  return i

theorem mergeSides_eq : mergeSides user policy c ours theirs ancestor
    = Traced.lift (uniteSides user policy c ours theirs ancestor) >>= enlist policy c := by
  unfold mergeSides uniteSides
  dsimp only
  split
  · simp only [ChangeList.write, Traced.lift_bind, bind_assoc, Traced.lift_pure, pure_bind,
      Traced.lift_ofExcept]
    rfl
  · rfl

theorem lift_checkSide {σ : Type} (c : Conflict) (side : Item) :
    (Traced.lift (checkSide c side) : Procedure σ Unit) = checkSide c side := by
  unfold checkSide
  split <;> rfl

/-- **Settling.** A conflict is settled without a look at the list, and its record put into the list. -/
theorem resolve_eq : resolve .bundled user policy c
    = Traced.lift (settlement user policy c) >>= enlist policy c := by
  have hresolve : resolve .bundled user policy c = (do
      let ours ← (Registry.bundled.decodeFound c.ours).lift
      let theirs ← (Registry.bundled.decodeFound c.theirs).lift
      let ancestor ← (Registry.bundled.decodeIfFound c.ancestor).lift
      checkSide c ours
      checkSide c theirs
      match ancestor with
      | some side => checkSide c side
      | none => pure ()
      mergeSides user policy c ours theirs ancestor) := rfl
  rw [hresolve]
  unfold settlement
  simp only [Traced.lift_bind, bind_assoc, lift_checkSide, mergeSides_eq]
  congr 1; funext ours
  congr 1; funext theirs
  congr 1; funext ancestor
  congr 1; funext _
  congr 1; funext _
  cases ancestor with
  | none => rfl
  | some side => simp only [Traced.lift_bind, bind_assoc, lift_checkSide]

theorem resolve_yields_error {f : Failure} (h : (settlement user policy c).Yields () (.error f) ()) :
    (resolve .bundled user policy c).Yields l (.error f) l := by
  rw [resolve_eq]
  exact h.lift.bind_error

/-- The merged item is the result when the list takes its record. -/
theorem resolve_yields_settled {i : Item} {blob : Bytes}
    (h : (settlement user policy c).Yields () (.ok (i, blob)) ()) {r : Except Failure Unit}
    (happend : (ChangeList.append (.update i.kind.name i.ident blob)).Yields l r l') :
    (resolve .bundled user policy c).Yields l (r.map fun _ => i) l' := by
  rw [resolve_eq]
  refine h.lift.bind ?_
  cases r with
  | error f => exact happend.bind_error
  | ok _ => exact happend.bind ((yields_report _ _).bind (yields_pure _ _))

/-! ## The sides of a conflict -/

section Matching

/-- A conflict whose records can be read and belong to it is settled as its sides are united. -/
theorem Matching.settlement_yields (h : Matching c ours theirs ancestor)
    {r : Except Failure (Item × Bytes)}
    (hu : (uniteSides user policy c ours theirs ancestor).Yields () r ()) :
    (settlement user policy c).Yields () r () := by
  unfold settlement
  refine h.readOurs.bind (h.readTheirs.bind (h.readAncestor.bind ?_))
  refine (checkSide_yields_ok h.oursMatches).bind ((checkSide_yields_ok h.theirsMatches).bind ?_)
  cases ancestor with
  | none => exact hu
  | some a => exact (checkSide_yields_ok (h.ancestorMatches a rfl)).bind hu

theorem uniteSides_yields_apart
    (h : Header.sameTime ours.header.createdAt theirs.header.createdAt = false) :
    (uniteSides user policy c ours theirs ancestor).Yields ()
      (.error (c.escalation .createdSeparately ["created_at"])) () := by
  unfold uniteSides
  simp only [h, Bool.false_eq_true, if_false]
  exact (yields_fail _ _).bind_error

section CreatedTogether

variable (created : Header.sameTime ours.header.createdAt theirs.header.createdAt = true)
include created

theorem uniteSides_yields_error {f : Failure}
    (h : (merge policy ours theirs ancestor c).Yields () (.error f) ()) :
    (uniteSides user policy c ours theirs ancestor).Yields () (.error f) () := by
  unfold uniteSides
  simp only [created, if_true]
  exact h.bind_error

section Merged

variable {merged : Item} (h : (merge policy ours theirs ancestor c).Yields () (.ok merged) ())
include h

theorem uniteSides_yields_header_error {f : Failure}
    (hh : mergedHeader ours.header theirs.header user merged.header = .error f) :
    (uniteSides user policy c ours theirs ancestor).Yields () (.error f) () := by
  unfold uniteSides
  simp only [created, if_true]
  refine h.bind ?_
  rw [hh]
  exact (yields_fail f ()).bind_error

variable {header : Header} (hh : mergedHeader ours.header theirs.header user merged.header = .ok header)
include hh

theorem uniteSides_yields_bytes_error {f : Failure}
    (hb : Item.bytes { merged with header } = .error f) :
    (uniteSides user policy c ours theirs ancestor).Yields () (.error f) () := by
  have hencode := Item.encode_yields { merged with header }
  rw [hb] at hencode
  unfold uniteSides
  simp only [created, if_true]
  refine h.bind ?_
  rw [hh]
  exact yields_ofExcept_ok_bind_iff.2 hencode.bind_error

/-- A merged item that has bytes with its header is what settles a conflict. -/
theorem uniteSides_yields_settled {blob : Bytes} (hb : Item.bytes { merged with header } = .ok blob) :
    (uniteSides user policy c ours theirs ancestor).Yields () (.ok ({ merged with header }, blob)) () := by
  have hencode := Item.encode_yields { merged with header }
  rw [hb] at hencode
  unfold uniteSides
  simp only [created, if_true]
  refine h.bind ?_
  rw [hh]
  exact yields_ofExcept_ok_bind_iff.2 (hencode.bind (yields_pure _ _))

end Merged

end CreatedTogether

end Matching

end Merge

end RecordStore
