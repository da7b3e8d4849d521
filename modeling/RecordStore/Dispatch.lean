import RecordStore.Store

/-!
# RecordStore.Dispatch

Actions on stored items by name.  Deleting is the same for every kind; the other actions are those
of the item's kind, and the item is written after them.
-/

namespace RecordStore

/-- An action on an item: deleting it, or one of the actions of tasks. -/
inductive Action where
  | delete
  | onTask (action : TaskAction)
deriving DecidableEq

namespace Action

/-- The name of an action. -/
def name : Action → Text
  | delete => "delete"
  | onTask a => a.name

/-- The action of a name. -/
def ofName (t : Text) : Except Failure Action :=
  if t = name delete then .ok delete
  else (TaskAction.ofName? t).elim (.error (.unknownAction t)) fun a => .ok (onTask a)

theorem ofName_name (a : Action) : ofName a.name = .ok a := by
  rcases a with _ | a
  · rfl
  · cases a <;> rfl

end Action

namespace Dispatch

/-- Delete an item, which must be there. -/
def deleteItem (ident : Text) : Procedure Session Response := do
  if ← Store.delete ident then
    return Response.addTag "deleted" ident {}
  else
    Procedure.fail (.itemNotFound ident)

/-- Do an action of the item's kind, and write the item. -/
def actOnItem (action : Action) (ident : Text) : Procedure Session Response := do
  let item ← Store.find ident
  let s := (← Procedure.state).surroundings
  return (← Procedure.withLocal item do
    let response ← Procedure.onSecond (Item.act action.name s)
    Store.save .update
    return response).1

/-- Do the action of a name on an item. -/
def dispatch (name ident : Text) : Procedure Session Response := do
  let action ← Procedure.ofExcept (Action.ofName name)
  Session.ensureOpen
  Procedure.report ⟨.info, "actions", "dispatch",
    [("action", action.name.quoted), ("ident", ident.quoted)]⟩
  if action = .delete then deleteItem ident else actOnItem action ident

end Dispatch

end RecordStore
