import RecordStore.Header

/-!
# RecordStore.Payload

The payload of an item: what items of its kind hold.  A page has a name and a text; a task adds a
context, a status, and a day until which it is deferred.  A kind that is added to a registry may
have further fields, which hold JSON values.

`Payload.fields` gives the payload as the members of a record, in the order in which records are
loaded.
-/

namespace RecordStore

/-! ## Bundled kinds -/

/-- A page of free text. -/
structure Page where
  name : Text := []
  text : Text := []
deriving DecidableEq

/-- How far a task has come. -/
inductive Status where
  | toDo
  | inProgress
  | done
deriving DecidableEq

namespace Status

/-- The label of a status, which records and pages show. -/
def label : Status → Text
  | toDo => "To Do"
  | inProgress => "In Progress"
  | done => "Done"

/-- The status with a label. -/
def ofLabel? (t : Text) : Option Status :=
  [toDo, inProgress, done].find? fun s => s.label == t

theorem ofLabel?_label (s : Status) : ofLabel? s.label = some s := by
  cases s <;> decide

theorem label_of_ofLabel? {t : Text} {s : Status} (h : ofLabel? t = some s) : s.label = t := by
  simpa using List.find?_some h

end Status

/-- Something to be done. -/
structure Task where
  name : Text := []
  text : Text := []
  context : Text := []
  status : Status := .toDo
  deferredUntil : Option Date := none
deriving DecidableEq

/-- What a payload holds besides further fields. -/
inductive Body where
  | page (p : Page)
  | task (t : Task)
deriving DecidableEq

/-! ## Payloads -/

/-- A further field of a kind: its name, its value in a new item, and the value that stands for one
that a record lacks; without such a value no record can be loaded. -/
structure ExtraField where
  name : Text
  fresh : Json
  default? : Option Json

/-- The payload of an item. -/
structure Payload where
  kind : Kind
  body : Body
  extras : List (ExtraField × Json) := []

namespace Payload

/-- A date as a record holds it. -/
def dateJson : Option Date → Json
  | none => .null
  | some d => .str d.text

/-- The fields of the body, in order. -/
def bodyFields : Body → Members
  | .page p => [("name", .str p.name), ("text", .str p.text)]
  | .task t => [("name", .str t.name), ("text", .str t.text), ("context", .str t.context),
      ("status", .str t.status.label), ("deferred_until", dateJson t.deferredUntil)]

/-- The further fields, in order. -/
def extraFields (extras : List (ExtraField × Json)) : Members :=
  extras.map fun e => (e.1.name, e.2)

/-- All fields as record members, in order. -/
def fields (p : Payload) : Members := bodyFields p.body ++ extraFields p.extras

/-! ## Queries -/

/-- A page is always open, and a task until it is done. -/
def isOpen (p : Payload) : Bool :=
  match p.body with
  | .page _ => true
  | .task t => t.status ≠ .done

/-- A page is always ready; a task is when it is open and its deferral is over. -/
def isReady (today : Date) (p : Payload) : Bool :=
  match p.body with
  | .page _ => true
  | .task t => p.isOpen && match t.deferredUntil with
    | none => true
    | some d => d.ble today

/-- A short label: the name, and a task's context behind it. -/
def description (p : Payload) : Text :=
  match p.body with
  | .page b => b.name
  | .task t =>
    if t.context.isEmpty then t.name else t.name ++ " @" ++ t.context

/-- Equality of payloads, further fields being compared by value. -/
def same (a b : Payload) : Bool :=
  a.kind.same b.kind && a.body == b.body
    && Json.sameItems (a.extras.map (·.2)) (b.extras.map (·.2))

end Payload

end RecordStore
