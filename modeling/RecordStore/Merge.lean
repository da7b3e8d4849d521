import RecordStore.Session

/-!
# RecordStore.Merge

Merging a batch of conflicts.  Each conflict is settled by the rule of its kind, which puts one
change into the batch's list, or is escalated, which puts none.  Any other failure ends the batch
before anything is written; otherwise the list is written as one batch at the end.

A merged item follows both sides: its parent is the higher revision of the two, and its time the
later one.
-/

namespace RecordStore.Merge

/-! ## One conflict -/

/-- A side must be of the kind and the identifier of its conflict. -/
def checkSide (c : Conflict) (side : Item) : Procedure σ Unit :=
  if side.kind.name = c.kind ∧ side.ident = c.ident then
    pure ()
  else
    Procedure.fail (c.escalation (.foreignSide side.kind.name side.ident) ["kind", "ident"])

/-- The later of two times, the first of equal ones. -/
def laterTime : Option Timestamp → Option Timestamp → Except Failure (Option Timestamp)
  | none, none => .ok none
  | some a, none => .ok (some a)
  | none, some b => .ok (some b)
  | some a, some b =>
    match b.compare? a with
    | none => .error .incomparableTimes
    | some .gt => .ok (some b)
    | some _ => .ok (some a)

/-- The user who merges, if there is one. -/
def mergedBy (user : Option Text) (old : Attribute (Option Text)) : Attribute (Option Text) :=
  match user with
  | some (g :: t) => .value (some (g :: t))
  | _ => old

/-- The header of a merged item. -/
def mergedHeader (ours theirs : Header) (user : Option Text) (merged : Header) :
    Except Failure Header := do
  let parent := max ours.revisionNumber theirs.revisionNumber
  let modifiedAt ← laterTime ours.modifiedAt theirs.modifiedAt
  return { merged with
    parentRevision := .value (some parent), revision := .value (parent + 1), modifiedAt,
    updatedBy := mergedBy user merged.updatedBy }

/-- Settle a conflict by the rule of its kind, and add the merged item to the changes. -/
def resolve (registry : Registry) (user : Option Text) (policy : MergePolicy) (c : Conflict) :
    Procedure ChangeList Item := do
  let ours ← (registry.decodeFound c.ours).lift
  let theirs ← (registry.decodeFound c.theirs).lift
  let ancestor ← (registry.decodeIfFound c.ancestor).lift
  checkSide c ours
  checkSide c theirs
  match ancestor with
  | some side => checkSide c side
  | none => pure ()
  unless Header.sameTime ours.header.createdAt theirs.header.createdAt do
    Procedure.fail (c.escalation .createdSeparately ["created_at"])
  let merged ← (merge policy ours theirs ancestor c).lift
  let header ← Procedure.ofExcept (mergedHeader ours.header theirs.header user merged.header)
  let merged : Item := { merged with header }
  ChangeList.write merged .update
  Procedure.report ⟨.info, "registry", "conflict resolved", [("ident", c.ident.quoted),
    ("policy", policy.name.quoted), ("revision", header.revisionJson.display)]⟩
  return merged

/-! ## A batch -/

/-- What became of one conflict. -/
structure Resolution where
  conflict : Conflict
  policy : MergePolicy
  outcome : Except Escalation Item

/-- The state of the conflict. -/
def Resolution.state (r : Resolution) : ConflictState :=
  match r.outcome with
  | .ok _ => .resolved
  | .error _ => .escalated

/-- A batch while it is merged: what became of the conflicts so far, and the changes to write. -/
structure Batch where
  resolutions : List Resolution := []
  changes : ChangeList := {}

/-- A step on the changes of a batch. -/
def Batch.onChanges (p : Procedure ChangeList α) : Procedure Batch α :=
  Procedure.onPart Batch.changes (fun l b => { b with changes := l }) p

/-- Settle or escalate one conflict. -/
def resolveOne (registry : Registry) (user : Option Text) (c : Conflict) :
    Procedure Batch Unit := do
  let policy := (← Procedure.ofExcept (registry.get c.kind)).merge
  Procedure.report ⟨.debug, "conflict", "conflict detected", [("ident", c.ident.quoted),
    ("kind", c.kind.quoted), ("has_ancestor", showBool c.ancestor.isSome)]⟩
  let result ← Procedure.attempt (Batch.onChanges (resolve registry user policy c))
  let keep (outcome : Except Escalation Item) : Procedure Batch Unit :=
    Procedure.modify fun b => { b with resolutions := b.resolutions ++ [⟨c, policy, outcome⟩] }
  match result with
  | .ok item => keep (.ok item)
  | .error (.unresolvable e) => keep (.error e)
  | .error e => fun b => ⟨.error e, b, []⟩

/-- Settle or escalate conflicts, one after the other. -/
def resolveAll (registry : Registry) (user : Option Text) : List Conflict → Procedure Batch Unit
  | [] => pure ()
  | c :: cs => do
    resolveOne registry user c
    resolveAll registry user cs

/-- The conflicts of a batch that are settled. -/
def Batch.resolved (b : Batch) : List Resolution :=
  b.resolutions.filter fun r => r.state = .resolved

/-- The conflicts of a batch that need a decision. -/
def Batch.escalated (b : Batch) : List Resolution :=
  b.resolutions.filter fun r => r.state = .escalated

/-- Merge conflicts, and write what is settled as one batch, whose name is the answer if there is
anything to write. -/
def mergeAll (conflicts : List Conflict) : Procedure (Session × Batch) (Option Text) := do
  Procedure.onFirst Session.ensureOpen
  let (s, _) ← Procedure.state
  Procedure.onSecond (resolveAll s.registry s.user conflicts)
  Procedure.onFirst Session.requireRepository
  let changes := (← Procedure.state).2.changes
  let (name, changes) ← Procedure.onFirst (Procedure.withLocal changes ChangeList.flush)
  Procedure.onSecond (Procedure.modify fun b => { b with changes })
  let b := (← Procedure.state).2
  Procedure.report ⟨.info, "conflict", "merge finished",
    [("resolved", showNat b.resolved.length), ("escalated", showNat b.escalated.length),
      ("batch", showText? name)]⟩
  return name

end RecordStore.Merge
