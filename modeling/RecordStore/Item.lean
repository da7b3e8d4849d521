import RecordStore.Payload.Load
import RecordStore.Payload.Pages

/-!
# RecordStore.Item

Items: a header together with a payload of the same kind.
-/

namespace RecordStore

/-- An item. -/
structure Item where
  header : Header
  payload : Payload

namespace Item

/-- The item with a header and a payload, whose kinds must be the same. -/
def make (header : Header) (payload : Payload) : Except Failure Item :=
  if payload.kind.same header.kind then
    .ok ⟨header, payload⟩
  else
    .error (.configuration (.payloadMismatch payload.kind header.kind header.ident))

/-- The identifier of an item. -/
def ident (i : Item) : Text := i.header.ident

/-- The kind of an item. -/
def kind (i : Item) : Kind := i.header.kind

/-- The item as messages show it; a revision that is too long cannot be shown. -/
def display (i : Item) : Except Failure Text :=
  let revision := i.header.revisionJson
  if revision.digitsWithin Json.digitLimit then
    .ok ("Item(ident=" ++ i.ident.quoted ++ ", kind=" ++ i.kind.display ++ ", rev="
      ++ revision.shown ++ ")")
  else
    .error .longInteger

/-- Equality of items by value. -/
def same (a b : Item) : Bool := a.header.same b.header && a.payload.same b.payload

/-- The record of an item as bytes. -/
def bytes (i : Item) : Except Failure Bytes := do
  Record.encode (.obj (← Record.flatten i.header i.payload.fields))

/-- Encode an item. -/
def encode (i : Item) : Traced Bytes := do
  let blob ← Procedure.ofExcept i.bytes
  Procedure.report ⟨.debug, "codec", "encoded", [("ident", i.ident.quoted),
    ("kind", i.kind.display), ("size", showNat blob.length)]⟩
  return blob

/-- Check a form for an item, whose header must be one that a record may hold. -/
def check (form : Form) (i : Item) : Except Failure CheckReport :=
  match i.header.toMembers with
  | .ok _ => .ok (i.payload.check form)
  | .error faults => .error (.invalidHeader faults)

/-- Stamp an item for its next write. -/
def stamp (user : Option Text) (now : Timestamp) : Procedure Item Unit := do
  Procedure.modify fun i => { i with header := i.header.notePast user now }
  let i ← Procedure.state
  match i.header.countUp? user now with
  | some header => Procedure.put { i with header }
  | none => Procedure.fail (.uncountable i.header.revisionJson)

/-- A step on the payload of an item. -/
def onPayload (p : Procedure Payload α) : Procedure Item α :=
  Procedure.onPart Item.payload (fun p i => { i with payload := p }) p

/-- The form to edit an item, or to create it. -/
def editForm (isForUpdate : Template.Value) (s : Surroundings) (i : Item) : Traced Response :=
  i.payload.editForm i.header isForUpdate s

/-- The page that shows an item. -/
def showPage (s : Surroundings) (i : Item) : Traced Response := i.payload.showPage i.header s

/-- Act on an item, and answer with the page that shows it. -/
def act (action : Text) (s : Surroundings) : Procedure Item Response := do
  let i ← Procedure.state
  onPayload (Payload.act i.header action s)

end Item

end RecordStore
