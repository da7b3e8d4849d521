import RecordStore.Payload.Input
import RecordStore.View

/-!
# RecordStore.Payload.Pages

The pages of payloads, the form to edit one and the page that shows it, and the actions on tasks.
An action changes the task and answers with the page that shows it.
-/

namespace RecordStore

/-- What a payload can see of the session around it. -/
structure Surroundings where
  kinds : List Kind
  view : View
  markup : Text → Text
  user : Option Text
  input : Form
  today : Date

/-- What can be done with a task. -/
inductive TaskAction where
  | done
  | reopen
  | start
  | defer
deriving DecidableEq

namespace TaskAction

/-- The name of an action. -/
def name : TaskAction → Text
  | done => "done"
  | reopen => "reopen"
  | start => "start"
  | defer => "defer"

/-- The action of a name. -/
def ofName? (t : Text) : Option TaskAction :=
  [done, reopen, start, defer].find? fun a => a.name == t

theorem ofName?_name (a : TaskAction) : ofName? a.name = some a := by
  cases a <;> decide

end TaskAction

namespace Payload

open Template (Value Context)

/-! ## Contexts -/

/-- A time as pages show it; a missing one is empty. -/
def timeValue (t : Option Timestamp) : Value := .text ((t.map Timestamp.text).getD [])

/-- An author as pages show it; a missing one is empty. -/
def authorValue : Attribute (Option Text) → Value
  | .value t => .text (t.getD [])
  | .malformed v => if (Value.ofJson v).truthy then Value.ofJson v else .text []

/-- A date as pages show it; a missing one is empty. -/
def dateValue (d : Option Date) : Value := .text ((d.map Date.text).getD [])

/-- What every form shows of the header, next to whether the item is there already. -/
def formHeader (h : Header) (isForUpdate : Value) (s : Surroundings) : Value :=
  .dict [("ident", .text h.ident), ("kind", .kind h.kind),
    ("is_for_update", isForUpdate), ("revision", .ofJson h.revisionJson),
    ("kinds", .list (s.kinds.map Value.kind))]

/-- What every page shows of the header. -/
def pageHeader (h : Header) (s : Surroundings) : Value :=
  .dict [("ident", .text h.ident), ("kind", .kind h.kind),
    ("revision", .ofJson h.revisionJson), ("created_at", timeValue h.createdAt),
    ("modified_at", timeValue h.modifiedAt), ("created_by", authorValue h.createdBy),
    ("updated_by", authorValue h.updatedBy), ("user", .text (s.user.getD []))]

/-- The context of the form for a body. -/
def formContext (h : Header) (isForUpdate : Value) (s : Surroundings) (b : Body) : Context :=
  match b with
  | .page p => [("base", formHeader h isForUpdate s),
      ("data", .dict [("name", .text p.name)]),
      ("broken_text", .text p.text.forAttribute)]
  | .task t => [("base", formHeader h isForUpdate s),
      ("data", .dict [("name", .text t.name), ("context", .text t.context),
        ("deferred_until", dateValue t.deferredUntil)]),
      ("broken_text", .text t.text.forAttribute)]

/-- The context of the page that shows a payload. -/
def pageContext (h : Header) (s : Surroundings) (p : Payload) : Context :=
  match p.body with
  | .page b => [("base", pageHeader h s), ("name", .text b.name),
      ("rendered_text", .text (s.markup b.text))]
  | .task t => [("base", pageHeader h s), ("name", .text t.name),
      ("context", .text t.context), ("status", .text t.status.label),
      ("is_open", .bool p.isOpen), ("is_ready", .bool (p.isReady s.today)),
      ("deferred_until", dateValue t.deferredUntil),
      ("rendered_text", .text (s.markup t.text))]

/-! ## Pages -/

/-- The form to edit a payload, or to create it. -/
def editForm (h : Header) (isForUpdate : Value) (s : Surroundings) (p : Payload) :
    Traced Response := do
  match p.body with
  | .page b => Procedure.report ⟨.debug, "simple", "text converted for edit",
      [("ident", h.ident.quoted), ("chars", showNat b.text.forAttribute.length)]⟩
  | .task _ => pure ()
  let (template, errorPlaces) : Text × List Text := match p.body with
    | .page _ => ("new-simple.html", ["name-error"])
    | .task _ => ("new-task.html", ["name-error", "deferred-error"])
  let content ← Procedure.ofExcept (s.view.render template (formContext h isForUpdate s p.body))
  return (Response.clearErrors errorPlaces {}).addTag "content" content

/-- The page that shows a payload. -/
def showPage (h : Header) (s : Surroundings) (p : Payload) : Traced Response := do
  let template := match p.body with
    | .page _ => "show-simple.html"
    | .task _ => "show-task.html"
  let content ← Procedure.ofExcept (s.view.render template (pageContext h s p))
  return Response.addTag "content" content {}

/-! ## Actions -/

/-- What an action makes of a task. -/
def actOn (action : TaskAction) (input : Form) (t : Task) : Except Failure Task :=
  match action with
  | .done => .ok { t with status := .done }
  | .reopen => .ok { t with status := .toDo }
  | .start => .ok { t with status := .inProgress }
  | .defer => do
    let raw ← input.require "deferred_until"
    let deferredUntil ← inputDeferral raw
    return { t with deferredUntil }

/-- Do the action of a name on a payload, and answer with the page that shows it.  A page has no
actions. -/
def act (h : Header) (name : Text) (s : Surroundings) : Procedure Payload Response := do
  let p ← Procedure.state
  let noActions : Procedure Payload Response :=
    Procedure.fail (.programming (.noActions p.kind.name h.ident name))
  match p.body with
  | .page _ => noActions
  | .task t =>
    match TaskAction.ofName? name with
    | none => noActions
    | some action =>
      let t ← Procedure.ofExcept (actOn action s.input t)
      Procedure.put { p with body := .task t }
      Procedure.report ⟨.info, "task", "task action", [("ident", h.ident.quoted),
        ("action", action.name.quoted), ("status", t.status.label.quoted)]⟩
      (← Procedure.state).showPage h s

end Payload

end RecordStore
