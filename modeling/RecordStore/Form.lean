import RecordStore.Procedure
import RecordStore.Text.Blank

/-!
# RecordStore.Form

Input from forms: named texts, and the rules for reading single fields.
-/

namespace RecordStore

/-- The fields of a form, by name. -/
abbrev Form := List (Text × Text)

namespace Form

/-- A field that must be there. -/
def require (name : Text) (form : Form) : Except Failure Text :=
  match form.lookup name with
  | some t => .ok t
  | none => .error (.validation (.missing name))

/-- A field that may be missing, and is then empty. -/
def optional (name : Text) (form : Form) : Text := (form.lookup name).getD []

/-- A deferral: a date, or nothing when the field is blank. -/
def readDeferral (raw : Text) : Except Failure (Option Date) :=
  let stripped := raw.strip
  if stripped.isEmpty then
    .ok none
  else
    match Date.ofText stripped with
    | .ok d => .ok (some d)
    | .error e => .error (.date stripped e)

end Form

end RecordStore
