import RecordStore.Payload
import RecordStore.Record

/-!
# RecordStore.Payload.Load

Loading a payload from the fields of a record.  A field that is missing or null takes its default;
fields that the kind does not have are ignored.  All fields are converted before the payload
changes, so a bad field leaves it as it was.
-/

namespace RecordStore.Payload

/-- The value of a field, if the record has one that is not null. -/
def present? (name : Text) (data : Members) : Option Json :=
  match data.get? name with
  | none => none
  | some .null => none
  | some v => some v

/-- A text field. -/
def loadText (kind : Kind) (name : Text) (data : Members) : Except Failure Text :=
  match present? name data with
  | none => .ok []
  | some (.str t) => .ok t
  | some v => .error (.deserialization (.notText kind.name name v))

/-- A status. -/
def loadStatus (data : Members) : Except Failure Status :=
  match present? "status" data with
  | none => .ok .toDo
  | some v =>
    match v with
    | .str t => (Status.ofLabel? t).elim (.error (.deserialization (.unknownStatus v))) .ok
    | v => .error (.deserialization (.unknownStatus v))

/-- A deferral. -/
def loadDeferral (data : Members) : Except Failure (Option Date) :=
  match present? "deferred_until" data with
  | none => .ok none
  | some v =>
    match v with
    | .str t =>
      match Date.ofText t with
      | .ok d => .ok (some d)
      | .error _ => .error (.deserialization (.badDeferral v))
    | v => .error (.deserialization (.badDeferral v))

/-- A further field.  One with a text as its default must be a text. -/
def loadExtra (kind : Kind) (data : Members) (f : ExtraField) : Except Failure Json :=
  match f.default? with
  | none => .error (.programming (.noDefault f.name))
  | some default =>
    match present? f.name data with
    | none => .ok default
    | some v =>
      match default, v with
      | .str _, .str _ => .ok v
      | .str _, v => .error (.deserialization (.notText kind.name f.name v))
      | _, v => .ok v

/-- The body of a record's payload, of the same sort as another body. -/
def loadBody (kind : Kind) (data : Members) : Body → Except Failure Body
  | .page _ => do
    let name ← loadText kind "name" data
    let text ← loadText kind "text" data
    return .page { name, text }
  | .task _ => do
    let name ← loadText kind "name" data
    let text ← loadText kind "text" data
    let context ← loadText kind "context" data
    let status ← loadStatus data
    let deferredUntil ← loadDeferral data
    return .task { name, text, context, status, deferredUntil }

/-- Further fields, one after the other. -/
def loadExtras (kind : Kind) (data : Members) :
    List (ExtraField × Json) → Except Failure (List (ExtraField × Json))
  | [] => .ok []
  | (f, _) :: rest => do
    let v ← loadExtra kind data f
    return (f, v) :: (← loadExtras kind data rest)

/-- Replace every field by the one of a record. -/
def load (data : Members) : Procedure Payload Unit := do
  let p ← Procedure.state
  let body ← Procedure.ofExcept (loadBody p.kind data p.body)
  let extras ← Procedure.ofExcept (loadExtras p.kind data p.extras)
  Procedure.put { p with body, extras }

/-- Replace every field by the one of a stored record, which must be of the same kind. -/
def decode (blob : Bytes) : Procedure Payload Unit := do
  let members ← Procedure.ofExcept (Record.decode blob)
  let (header, data) ← Procedure.ofExcept (Record.split members)
  let p ← Procedure.state
  if header.kind.same p.kind then
    load data
  else
    Procedure.fail (.deserialization (.wrongKind header.kind.name p.kind header.ident))

end RecordStore.Payload
