import RecordStore.Failure

/-!
# RecordStore.Header.Assign

Assigning the fields of a header one by one.  Identifier and kind are fixed; times can be taken away
but not given; authors and revisions take any value and are checked when the item is written.
-/

namespace RecordStore.Header

/-- An author as it is assigned. -/
def assignedAuthor : Json → Attribute (Option Text)
  | .null => .value none
  | .str t => .value (some t)
  | v => .malformed v

/-- A parent revision as it is assigned. -/
def assignedParent : Json → Attribute (Option Int)
  | .null => .value none
  | .int n => .value (some n)
  | v => .malformed v

/-- A revision as it is assigned. -/
def assignedRevision : Json → Attribute Int
  | .int n => .value n
  | v => .malformed v

/-- A time as it is assigned: none, since no JSON value is a time. -/
def assignedTime : Json → Except Failure (Option Timestamp)
  | .null => .ok none
  | v => .error (.notATime v)

/-- Assign a field; a header without the field stays as it is. -/
def assign (field : Text) (v : Json) (h : Header) : Except Failure Header :=
  if field = "ident" ∨ field = "kind" then .error (.immutable field)
  else if field = "revision" then .ok { h with revision := assignedRevision v }
  else if field = "parent_revision" then .ok { h with parentRevision := assignedParent v }
  else if field = "created_at" then (assignedTime v).map fun t => { h with createdAt := t }
  else if field = "modified_at" then (assignedTime v).map fun t => { h with modifiedAt := t }
  else if field = "created_by" then .ok { h with createdBy := assignedAuthor v }
  else if field = "updated_by" then .ok { h with updatedBy := assignedAuthor v }
  else .ok h

end RecordStore.Header
