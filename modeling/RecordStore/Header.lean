import RecordStore.Kind
import RecordStore.Timestamp

/-!
# RecordStore.Header

The header of an item: what every item has whatever its kind.  It names the item, counts its
revisions, and says when and by whom it was written first and last.

Names of authors and the revisions can be assigned freely and are checked only when the item is
written, so such an attribute is either of the right type or any other JSON value (`Attribute`).

A write first notes where the item comes from (`Header.notePast`) and then counts the revision up
(`Header.countUp?`), which only a number can be.
-/

namespace RecordStore

/-- An attribute that is not checked when it is assigned. -/
inductive Attribute (α : Type) where
  | value (a : α)
  | malformed (v : Json)

namespace Attribute

/-- The value of a well-formed attribute. -/
def get? : Attribute α → Option α
  | value a => some a
  | malformed _ => none

/-- The attribute as JSON. -/
def toJson (f : α → Json) : Attribute α → Json
  | value a => f a
  | malformed v => v

end Attribute

/-- A revision number as JSON, null when there is none. -/
def Json.ofInt? : Option Int → Json
  | none => .null
  | some n => .int n

/-- The metadata of an item. -/
structure Header where
  ident : Text
  kind : Kind
  revision : Attribute Int
  parentRevision : Attribute (Option Int)
  createdAt : Option Timestamp
  modifiedAt : Option Timestamp
  createdBy : Attribute (Option Text)
  updatedBy : Attribute (Option Text)

namespace Header

/-- The names of the header's fields, in order; payload fields have other names. -/
def fieldNames : List Text :=
  ["ident", "kind", "revision", "parent_revision", "created_at", "modified_at", "created_by",
    "updated_by"]

/-- Whether a record key is a field of the header. -/
def isField (key : Text) : Bool := fieldNames.contains key

/-- The header of an item that was never written. -/
def fresh (ident : Text) (kind : Kind) : Header where
  ident := ident
  kind := kind
  revision := .value 0
  parentRevision := .value none
  createdAt := none
  modifiedAt := none
  createdBy := .value none
  updatedBy := .value none

/-- The revision as JSON. -/
def revisionJson (h : Header) : Json := h.revision.toJson .int

/-- The number of the revision; one that is no number counts as none. -/
def revisionNumber (h : Header) : Int := h.revision.get?.getD 0

/-- A revision as the parent of the next one. -/
def asParent : Attribute Int → Attribute (Option Int)
  | .value n => .value (some n)
  | .malformed .null => .value none
  | .malformed v => .malformed v

/-- Note where the next write comes from: the first write of all is the creation and has no parent,
and a later one has the revision before it as its parent. -/
def notePast (user : Option Text) (now : Timestamp) (h : Header) : Header :=
  match h.createdAt with
  | none =>
    { h with createdAt := some now, createdBy := .value user, parentRevision := .value none }
  | some _ => { h with parentRevision := asParent h.revision }

/-- The revision after one.  Numbers count up, a truth value being zero or one; other values have no
successor. -/
def next? : Attribute Int → Option (Attribute Int)
  | .value n => some (.value (n + 1))
  | .malformed (.bool b) => some (.value (if b then 2 else 1))
  | .malformed (.float x) => some (.malformed (.float (x.shifted 1)))
  | .malformed _ => none

/-- Count the revision up for a write. -/
def countUp? (user : Option Text) (now : Timestamp) (h : Header) : Option Header :=
  (next? h.revision).map fun revision =>
    { h with revision, modifiedAt := some now, updatedBy := .value user }

/-- Equality of optional times: at the same point in time, or both missing. -/
def sameTime : Option Timestamp → Option Timestamp → Bool
  | none, none => true
  | some a, some b => a.same b
  | _, _ => false

/-- Equality of headers, every field compared by value. -/
def same (a b : Header) : Bool :=
  a.ident == b.ident && a.kind.same b.kind && Json.sameInside a.revisionJson b.revisionJson
    && Json.sameInside (a.parentRevision.toJson .ofInt?) (b.parentRevision.toJson .ofInt?)
    && sameTime a.createdAt b.createdAt && sameTime a.modifiedAt b.modifiedAt
    && Json.sameInside (a.createdBy.toJson .ofText?) (b.createdBy.toJson .ofText?)
    && Json.sameInside (a.updatedBy.toJson .ofText?) (b.updatedBy.toJson .ofText?)

end Header

end RecordStore
