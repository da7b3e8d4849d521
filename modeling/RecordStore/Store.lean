import RecordStore.Session

/-!
# RecordStore.Store

The operations on stored items: look up, create, update, delete, and the pages for them.  Every
write goes through a change list, also that of a single item.

An item that is written is stamped first.  Input is checked before it is taken over, and the session
remembers it, also when it is refused.
-/

namespace RecordStore.Store

/-! ## Looking up -/

/-- The item of an identifier. -/
def find (ident : Text) : Procedure Session Item := do
  Session.requireRepository
  match ← Session.lookUp (Repository.read ident) with
  | some blob => Session.decodeItem blob
  | none => Procedure.fail (.itemNotFound ident)

/-- The item of an identifier, in a session that is not over. -/
def get (ident : Text) : Procedure Session Item := do
  Session.ensureOpen
  find ident

/-- Whether there is an item of an identifier. -/
def contains (ident : Text) : Procedure Session Bool := do
  Session.requireRepository
  Session.lookUp fun d => .ok (Repository.exists? ident d)

/-- The items of some identifiers. -/
def findAll : List Text → Procedure Session (List Item)
  | [] => pure []
  | ident :: rest => do
    let item ← find ident
    return item :: (← findAll rest)

/-- All items, or those of one kind, in the order of their record files. -/
def list (kind? : Option Text) : Procedure Session (List Item) := do
  Session.requireRepository
  let entries ← Session.lookUp fun d => .ok (Repository.entries kind? d)
  findAll (entries.map Prod.snd)

/-! ## Pages -/

/-- A new item of a kind, made by the session's user. -/
def newItem (kind : Text) : Procedure Session Item := do
  Session.makeItem kind none (← Procedure.state).user

/-- The form for a new item. -/
def newForm (kind : Text) : Procedure Session Response := do
  Session.ensureOpen
  let item ← newItem kind
  (item.editForm (.bool false) (← Procedure.state).surroundings).lift

/-- The form to edit an item. -/
def editForm (ident : Text) : Procedure Session Response := do
  let item ← get ident
  (item.editForm (.bool true) (← Procedure.state).surroundings).lift

/-- The page that shows an item. -/
def showPage (ident : Text) : Procedure Session Response := do
  let item ← get ident
  (item.showPage (← Procedure.state).surroundings).lift

/-! ## Writing -/

/-- Remember input for an item, and refuse it with all that is wrong with it. -/
def check (item : Item) (form : Form) : Procedure Session Unit := do
  Session.setInput form
  let report ← Procedure.ofExcept (item.check form)
  unless report.success do
    Procedure.fail (.validation (.rejected report.errors item.ident))

/-- Stamp an item with the time of the session's clock. -/
def stamp (user : Option Text) : Procedure (Session × Item) Unit := do
  let now ← Procedure.onFirst Session.readClock
  Procedure.onSecond (Item.stamp user now)

/-- Write an item as a batch of its own. -/
def save (op : Operation) : Procedure (Session × Item) Unit := do
  stamp (← Procedure.state).1.user
  let item := (← Procedure.state).2
  Procedure.onFirst do
    let (_, changes) ← Procedure.runOn {} (ChangeList.write item op)
    Session.requireRepository
    discard (Procedure.withLocal changes ChangeList.flush)
  Procedure.report ⟨.info, "store", op.name ++ " saved", [("ident", item.ident.quoted),
    ("kind", item.kind.display), ("revision", item.header.revisionJson.display)]⟩

/-- Take input over into an item, and write it. -/
def writeInput (form : Form) (op : Operation) : Procedure (Session × Item) Unit := do
  let item := (← Procedure.state).2
  Procedure.onFirst (check item form)
  Procedure.onSecond (Item.onPayload (Payload.applyForm form))
  save op

/-- Create an item of a kind from input. -/
def create (kind : Text) (form : Form) : Procedure Session Item := do
  Session.ensureOpen
  let item ← newItem kind
  return (← Procedure.withLocal item (writeInput form .create)).2

/-- Update an item from input. -/
def update (ident : Text) (form : Form) : Procedure Session Item := do
  let item ← get ident
  return (← Procedure.withLocal item (writeInput form .update)).2

/-- Delete an item; the answer tells whether there was one. -/
def delete (ident : Text) : Procedure Session Bool := do
  Session.requireRepository
  let entries ← Session.lookUp fun d => .ok (Repository.entries none d)
  match entries.find? fun e => e.2 == ident with
  | none => return false
  | some (kind, _) => do
    let (_, changes) ← Procedure.runOn {} (ChangeList.delete kind ident)
    discard (Procedure.withLocal changes ChangeList.flush)
    Procedure.report ⟨.info, "store", "deleted", [("ident", ident.quoted), ("kind", kind.quoted)]⟩
    return true

end RecordStore.Store
