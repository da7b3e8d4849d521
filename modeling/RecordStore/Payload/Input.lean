import RecordStore.Form
import RecordStore.Payload
import RecordStore.Response

/-!
# RecordStore.Payload.Input

Input of payloads.  `Payload.check` reports on every field of a form without changing anything;
`Payload.applyForm` takes the fields over, and fails before the first change when one that it needs
is missing or bad.  Fields that the form leaves out go back to their defaults; the status of a task
is none of them.
-/

namespace RecordStore.Payload

/-- Whether the name field holds more than blanks. -/
def hasName (form : Form) : Bool := !(form.optional "name").strip.isEmpty

/-- Whether the deferral field is blank or a date. -/
def hasDeferral (form : Form) : Bool :=
  match Form.readDeferral (form.optional "deferred_until") with
  | .ok _ => true
  | .error _ => false

/-- Check all fields of a form. -/
def check (form : Form) (p : Payload) : CheckReport :=
  let named := CheckReport.require (hasName form) "name-error" "Name must be non-blank." {}
  match p.body with
  | .page _ => named
  | .task _ => named.require (hasDeferral form) "deferred-error" deferralMessage

/-- A deferral from a form, a bad one being bad input. -/
def inputDeferral (raw : Text) : Except Failure (Option Date) :=
  (Form.readDeferral raw).mapError fun _ => .validation .badDeferral

/-- Take over the fields of a form. -/
def applyForm (form : Form) : Procedure Payload Unit := do
  let p ← Procedure.state
  let name ← Procedure.ofExcept (form.require "name")
  match p.body with
  | .page _ => Procedure.put { p with body := .page { name, text := form.optional "text" } }
  | .task t => do
    let deferredUntil ← Procedure.ofExcept (inputDeferral (form.optional "deferred_until"))
    Procedure.put { p with body := .task { t with
      name, text := form.optional "text", context := form.optional "context", deferredUntil } }

end RecordStore.Payload
