import RecordStore.Conflict
import RecordStore.Item

/-!
# RecordStore.Merge.Policy

Rules for merging two sides of a conflict.

* Union of fields: a field that one side changed takes that side's value.  A field that both sides
  changed, or in which they differ when no ancestor is known, is contested: it goes to the side that
  was written later, or, without that tie break, to a person.
* Last write: the side that was written later is taken as a whole.
* Escalation: a person decides always.

The side that was written later is the one with the higher revision, then the later time, then the
author and the bytes that come later in order; of equal sides it is ours.
-/

namespace RecordStore

/-- A rule for merging. -/
inductive MergePolicy where
  | fieldUnion (tieBreak : Bool)
  | lastWrite
  | escalate
deriving DecidableEq

namespace MergePolicy

/-- The name of a rule. -/
def name : MergePolicy → Text
  | fieldUnion false => "field_union"
  | fieldUnion true => "field_union+last_write_wins"
  | lastWrite => "last_write_wins"
  | escalate => "escalate"

/-- The rule of a name. -/
def ofName? (t : Text) : Option MergePolicy :=
  [fieldUnion false, fieldUnion true, lastWrite, escalate].find? fun p => p.name == t

end MergePolicy

namespace Merge

/-! ## Differences -/

/-- The value of a field, null when it is missing. -/
def valueOf (fields : Members) (key : Text) : Json := (fields.get? key).getD .null

/-- The keys of two records, each once and in order. -/
def allKeys (a b : Members) : List Text :=
  (a.keys ++ b.keys.filter fun k => !a.keys.contains k).mergeSort Text.ble

/-- The keys under which two records have different values. -/
def fieldDiff (a b : Members) : List Text :=
  (allKeys a b).filter fun k => !Json.same (valueOf a k) (valueOf b k)

/-- The keys under which two values have different members; where there are keys, both must be
objects. -/
def valueDiff (a b : Json) : Except Json.KeyFault (List Text) := do
  let keys := (← a.listedKeys) ++ (← b.listedKeys)
  match a, b with
  | .obj a, .obj b => return fieldDiff a b
  | .obj _, other | other, _ => if keys.isEmpty then return [] else throw (.noLookup other)

/-! ## The later write -/

/-- Order of bytes, position by position; bytes come after their proper beginnings. -/
def compareBytes : Bytes → Bytes → Ordering
  | [], [] => .eq
  | [], _ :: _ => .lt
  | _ :: _, [] => .gt
  | a :: s, b :: t => if a < b then .lt else if b < a then .gt else compareBytes s t

/-- The time of the last write, the earliest instant when it is not known. -/
def writeTime (h : Header) : Timestamp := h.modifiedAt.getD .earliest

/-- The author of the last write, the empty text when it is not known. -/
def writer (h : Header) : Text := (h.updatedBy.get?.bind id).getD []

/-- Whether a side was written later than another.  Two times of which only one has an offset cannot
be compared, which matters when the revisions are equal. -/
def writtenLater (a : Item) (blobA : Bytes) (b : Item) (blobB : Bytes) : Except Failure Bool :=
  if a.header.revisionNumber ≠ b.header.revisionNumber then
    .ok (b.header.revisionNumber < a.header.revisionNumber)
  else
    match (writeTime a.header).compare? (writeTime b.header) with
    | none => .error .incomparableTimes
    | some .gt => .ok true
    | some .lt => .ok false
    | some .eq =>
      match Text.compare (writer a.header) (writer b.header) with
      | .gt => .ok true
      | .lt => .ok false
      | .eq => .ok (compareBytes blobA blobB = .gt)

/-- The side that was written later. -/
def pickLater (ours theirs : Item) (c : Conflict) : Except Failure Item := do
  if ← writtenLater theirs (c.theirs.getD []) ours (c.ours.getD []) then return theirs
  else return ours

/-! ## Union of fields -/

/-- What becomes of one field: a value, or nothing if the field is contested. -/
def settle? (mine other : Json) (common : Option Json) : Option Json :=
  if mine.same other then some mine
  else
    match common with
    | none => none
    | some c => if mine.same c then some other else if other.same c then some mine else none

/-- The fields of two sides that are settled, with their values. -/
def settled (mine other : Members) (common : Option Members) (keys : List Text) : Members :=
  keys.filterMap fun k =>
    (settle? (valueOf mine k) (valueOf other k) (common.map (valueOf · k))).map (k, ·)

/-- The fields of two sides that are contested. -/
def contested (mine other : Members) (common : Option Members) (keys : List Text) : List Text :=
  keys.filter fun k =>
    (settle? (valueOf mine k) (valueOf other k) (common.map (valueOf · k))).isNone

/-- Merge two sides field by field. -/
def unionFields (tieBreak : Bool) (ours theirs : Item) (ancestor : Option Item) (c : Conflict) :
    Traced Item := do
  let mine := ours.payload.fields
  let other := theirs.payload.fields
  let common := ancestor.map fun i => i.payload.fields
  let keys := allKeys mine other
  let open_ := contested mine other common keys
  let decided ←
    if open_.isEmpty then
      pure []
    else if tieBreak then do
      let winner ← Procedure.ofExcept (pickLater ours theirs c)
      Procedure.report ⟨.debug, "conflict", "contested fields settled by tie-break",
        [("ident", c.ident.quoted), ("fields", Text.quotedList open_),
          ("policy", MergePolicy.lastWrite.name.quoted)]⟩
      pure (open_.map fun k => (k, valueOf winner.payload.fields k))
    else
      Procedure.fail (c.escalation .contested open_)
  let (_, payload) ←
    Procedure.runOn ours.payload (Payload.load (settled mine other common keys ++ decided))
  return { ours with payload }

/-- Merge two sides by a rule. -/
def merge (policy : MergePolicy) (ours theirs : Item) (ancestor : Option Item) (c : Conflict) :
    Traced Item :=
  match policy with
  | .fieldUnion tieBreak => unionFields tieBreak ours theirs ancestor c
  | .lastWrite => Procedure.ofExcept (pickLater ours theirs c)
  | .escalate =>
    Procedure.fail (c.escalation .manual (fieldDiff ours.payload.fields theirs.payload.fields))

/-- What a rule looks at first. -/
def firstLook : MergePolicy → Absence
  | .lastWrite => .header
  | _ => .payload

/-- Merge two sides by a rule; both must have been found. -/
def mergeFound (policy : MergePolicy) (ours theirs ancestor : Option Item) (c : Conflict) :
    Traced Item :=
  match ours, theirs with
  | some ours, some theirs => merge policy ours theirs ancestor c
  | _, _ => Procedure.fail (.absent (firstLook policy))

end Merge

end RecordStore
