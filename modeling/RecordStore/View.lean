import RecordStore.Template
import RecordStore.Template.Bundled
import RecordStore.Text.LineBreak
import RecordStore.Utf8

/-!
# RecordStore.View

Where the templates of pages come from: the bundled ones, or a directory of files.  A template file
is UTF-8, and its line breaks are read as line feeds.
-/

namespace RecordStore

/-- Where templates come from: the bundled ones, or the files of a directory. -/
inductive View where
  | bundled
  | directory (path : Text) (files : List (Text × Bytes))

namespace View

/-- The template in a file. -/
def readTemplate (blob : Bytes) : Except Failure Text :=
  (Utf8.decode blob).mapError Failure.undecodable |>.map fun cs =>
    Text.unifyBreaks (Text.ofChars cs)

/-- The template of a name. -/
def template (view : View) (name : Text) : Except Failure Text :=
  match view with
  | bundled =>
    match Template.bundled.lookup name with
    | some parts => .ok (Template.print parts)
    | none => .error (.missingTemplate name name)
  | directory path files =>
    match files.lookup name with
    | some blob => readTemplate blob
    | none => .error (.missingTemplate name (path ++ "/" ++ name))

/-- Render the template of a name. -/
def render (view : View) (name : Text) (ctx : Template.Context) : Except Failure Text := do
  Template.render ctx (← view.template name)

end View

end RecordStore
