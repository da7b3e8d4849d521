import RecordStore.Json.Display
import RecordStore.Text.LineBreak
import RecordStore.Utf8

/-!
# RecordStore.Journal

The diagnostic journal.  Every part of the library reports what it does as an `Event`; a journal
keeps the events that reach its threshold and writes each as one entry:

    [2026-01-01 00:00:00] INFO    store create saved ident='a' revision=1

The journal opens its file with a heading, which is itself an entry and subject to the threshold.

A `Note` is an event as a caller outside of the library words it.  Its level may stand among its
named values, but it may not be said twice, and neither may the message nor the component, which
every note says.
-/

namespace RecordStore

/-! ## Levels -/

/-- How grave an event is. -/
inductive Level where
  | debug
  | info
  | warning
  | error
deriving DecidableEq

namespace Level

/-- The rank of a level; graver levels have higher ranks. -/
def rank : Level → Nat
  | debug => 10
  | info => 20
  | warning => 30
  | error => 40

/-- The name of a level. -/
def name : Level → Text
  | debug => "DEBUG"
  | info => "INFO"
  | warning => "WARNING"
  | error => "ERROR"

/-- A letter of a level's name in upper case; the dotless i counts as an i. -/
def upper : Glyph → Glyph
  | .char c => .char (if c = 'ı' then 'I' else c.toUpper)
  | g => g

/-- The level of a name in any case; an unknown name means `info`. -/
def ofName (t : Text) : Level :=
  ([debug, info, warning, error].find? fun l => l.name == t.map upper).getD info

end Level

/-! ## Events -/

/-- Something worth reporting: a message of a component, with named values as they are shown. -/
structure Event where
  level : Level
  component : Text
  message : Text
  fields : List (Text × Text) := []
deriving DecidableEq

namespace Event

/-- The event as a journal entry, its values in the order of their names. -/
def entry (time : Text) (e : Event) : Text :=
  let level := e.level.name ++ List.replicate (7 - e.level.name.length) (.char ' ')
  let source : Text := if e.component.isEmpty then [] else e.component ++ " "
  let sorted := e.fields.mergeSort fun a b => a.1.ble b.1
  let values : Text := sorted.flatMap fun (name, value) => " " ++ name ++ "=" ++ value
  "[" ++ time ++ "] " ++ level ++ " " ++ source ++ e.message ++ values ++ "\n"

end Event

/-! ## Notes -/

/-- A note handed to the journal from outside: a message, what is said about its level, a component,
and named values.  A note can be `bound` to its component beforehand. -/
structure Note where
  bound : Bool
  message : Json
  level? : Option Json
  component : Json
  values : Members

namespace Note

/-- The name of the message among the values. -/
def messageName : Text := "message"

/-- The name of the level among the values. -/
def levelName : Text := "level"

/-- The name of the component among the values. -/
def componentName : Text := "component"

/-- The names of what is said already, in the groups in which a second saying is noticed. -/
def said (n : Note) : List (List Text) :=
  let own := messageName :: if n.level?.isSome then [levelName] else []
  if n.bound then [own, [componentName]] else [[componentName], own]

/-- The name that is said twice, if there is one: the first among the values. -/
def repeated? (n : Note) : Option Text := n.said.findSome? fun names =>
  n.values.keys.find? names.contains

/-- The level of a note: as said, or as a value has it; by itself a bound note is for debugging. -/
def level (n : Note) : Level :=
  match n.level?.or (n.values.get? levelName) with
  | some v => .ofName v.shown
  | none => if n.bound then .debug else .info

/-- The event of a note, or the name of what is said twice.  An empty component is none. -/
def event (n : Note) : Except Text Event :=
  match n.repeated? with
  | some name => .error name
  | none =>
    .ok ⟨n.level, if n.component.isEmpty then [] else n.component.shown, n.message.shown,
      (n.values.filter fun (k, _) => k ≠ levelName).map fun (k, v) => (k, v.display)⟩

end Note

/-- A truth value as journal entries show it. -/
def showBool (b : Bool) : Text := if b then "True" else "False"

/-- A number as journal entries show it. -/
def showNat (n : Nat) : Text := Text.ofNat n

/-- An optional text as journal entries show it. -/
def showText? : Option Text → Text
  | none => "None"
  | some t => t.quoted

/-! ## Journals -/

/-- A journal: what it keeps, and what it has written so far. -/
structure Journal where
  enabled : Bool
  threshold : Level
  toConsole : Bool
  toFile : Bool
  headed : Bool := false
  console : Text := []
  file : Option Text := none

namespace Journal

/-- Whether an event of a level is kept. -/
def keeps (j : Journal) (l : Level) : Bool := j.enabled && j.threshold.rank ≤ l.rank

/-- Write an entry.  A file takes no lone surrogates. -/
def write (time : Text) (e : Event) (j : Journal) : Except Utf8.EncodeFault Journal := do
  let entry := e.entry time
  if j.toFile then
    discard (Utf8.encode entry)
  return { j with
    console := if j.toConsole then j.console ++ entry else j.console
    file := if j.toFile then some (j.file.getD [] ++ entry) else j.file }

/-- The journal file as it is read: its line breaks are line feeds. -/
def fileText? (j : Journal) : Option Text := j.file.map Text.unifyBreaks

/-- The heading of a journal file. -/
def heading : Event := ⟨.info, [], "--- New item store session ---", []⟩

/-- Report an event: it is written if it reaches the threshold, and before the first entry that goes
to a file comes the heading, if that reaches the threshold too. -/
def report (time : Text) (e : Event) (j : Journal) : Except Utf8.EncodeFault Journal := do
  if j.keeps e.level then
    let headless := j.toFile && !j.headed
    let j := { j with headed := j.headed || j.toFile }
    let j ← if headless && j.keeps heading.level then j.write time heading else pure j
    j.write time e
  else
    return j

end Journal

end RecordStore
