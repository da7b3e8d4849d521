import RecordStore.RecordName

/-!
# RecordStore.Conflict

Conflicts: two records of one item that went apart, with the record they come from if it is known.
A conflict is named by a path, from which kind and identifier are taken.
-/

namespace RecordStore

/-- How far the settling of a conflict has come. -/
inductive ConflictState where
  | detected
  | resolved
  | escalated
deriving DecidableEq

/-- The name of a state. -/
def ConflictState.name : ConflictState → Text
  | detected => "detected"
  | resolved => "resolved"
  | escalated => "escalated"

/-- Two records of one item that went apart, with the kind and the identifier that are read from a
path.  A side may have been looked for and not found; such a conflict can be named, but not settled. -/
structure Conflict where
  kind : Text
  ident : Text
  ours : Option Bytes
  theirs : Option Bytes
  ancestor : Option Bytes
  named : ∃ path, RecordName.ofStem (RecordName.pathStem path) = .ok (kind, ident)
deriving DecidableEq

namespace Conflict

/-- The conflict at a path, which must be the path of a record. -/
def make (path : Text) (ours theirs ancestor : Option Bytes) : Except Failure Conflict :=
  match h : RecordName.ofStem (RecordName.pathStem path) with
  | .ok (kind, ident) => .ok ⟨kind, ident, ours, theirs, ancestor, path, h⟩
  | .error _ => .error (.deserialization (.notARecordPath path))

/-- The failure that hands the conflict over for a decision. -/
def escalation (c : Conflict) (reason : EscalationReason) (fields : List Text) : Failure :=
  .unresolvable ⟨reason, c.ident, c.ours, c.theirs, c.ancestor, fields⟩

end Conflict

end RecordStore
