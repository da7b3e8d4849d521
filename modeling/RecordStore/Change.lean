import RecordStore.Failure

/-!
# RecordStore.Change

Changes of single records: a record is stored, as a new one or over an old one, or deleted.
-/

namespace RecordStore

/-- What a change does. -/
inductive Operation where
  | create
  | update
  | delete
deriving DecidableEq

namespace Operation

/-- The name of an operation. -/
def name : Operation → Text
  | create => "create"
  | update => "update"
  | delete => "delete"

/-- The operation of a name. -/
def ofName (t : Text) : Except Failure Operation :=
  match [create, update, delete].find? fun op => op.name == t with
  | some op => .ok op
  | none => .error (.change (.unknownOperation t))

end Operation

/-- A change of one record; only what is stored has data. -/
inductive Change where
  | create (kind ident : Text) (data : Bytes)
  | update (kind ident : Text) (data : Bytes)
  | delete (kind ident : Text)
deriving DecidableEq

namespace Change

/-- What the change does. -/
def operation : Change → Operation
  | create .. => .create
  | update .. => .update
  | delete .. => .delete

/-- The kind of the record. -/
def kind : Change → Text
  | create k _ _ | update k _ _ | delete k _ => k

/-- The identifier of the record. -/
def ident : Change → Text
  | create _ i _ | update _ i _ | delete _ i => i

/-- The bytes that are stored. -/
def data? : Change → Option Bytes
  | create _ _ d | update _ _ d => some d
  | delete .. => none

/-- The change with the given parts: a deletion has no data, and the others have some. -/
def make (op : Operation) (kind ident : Text) (data? : Option Bytes) : Except Failure Change :=
  match op, data? with
  | .create, some d => .ok (create kind ident d)
  | .update, some d => .ok (update kind ident d)
  | .delete, none => .ok (delete kind ident)
  | .delete, some _ => .error (.change .needlessData)
  | op, none => .error (.change (.missingData op.name ident))

/-- A change is made of its own parts. -/
theorem make_parts (c : Change) : make c.operation c.kind c.ident c.data? = .ok c := by
  cases c <;> rfl

end Change

end RecordStore
