import RecordStore.Change
import RecordStore.Record
import RecordStore.Text.LineBreak

/-!
# RecordStore.Repository.Manifest

The manifest of a batch: a JSON text that lists the changes in order.  A change that stores a record
names the staged file that holds its bytes.

    {
      "batch": "1",
      "ops": [
        {
          "op": "create",
          "kind": "simple",
          "ident": "a",
          "file": "000000.json"
        }
      ]
    }

A manifest is read as any JSON value, and each part of it is looked up when it is needed, so a
manifest that is bad at some place is replayed up to there.
-/

namespace RecordStore.Manifest

/-- The name of a manifest in the directory of its batch. -/
def fileName : Text := "manifest.json"

/-- The name under which a manifest is written before it counts. -/
def draftName : Text := "manifest.json.tmp"

/-- The name of the staged file of change number `n`. -/
def stagedName (n : Nat) : Text := Text.ofChars (Date.padded 6 n) ++ ".json"

/-! ## Writing -/

/-- Change number `n` as a manifest lists it. -/
def changeJson (n : Nat) (c : Change) : Json :=
  let parts : Members :=
    [("op", .str c.operation.name), ("kind", .str c.kind), ("ident", .str c.ident)]
  let file : Members := if c.data?.isSome then [("file", .str (stagedName n))] else []
  .obj (parts ++ file)

/-- Changes as a manifest lists them, from number `n` on. -/
def changesJson : Nat → List Change → List Json
  | _, [] => []
  | n, c :: cs => changeJson n c :: changesJson (n + 1) cs

/-- The manifest of a batch. -/
def json (batch : Text) (changes : List Change) : Json :=
  .obj [("batch", .str batch), ("ops", .arr (changesJson 0 changes))]

/-- The content of a manifest file: an ASCII text without a last line feed. -/
def encode (batch : Text) (changes : List Change) : Except Failure Bytes :=
  (Utf8.encode ((json batch changes).write .ascii)).mapError .unencodable

/-! ## Reading -/

/-- Read a manifest file; every kind of line break counts as a line feed. -/
def read (content : Bytes) : Except Failure Json := do
  let cs ← (Utf8.decode content).mapError fun e => .manifest (.undecodable e)
  (Json.read (Text.ofChars cs).unifyBreaks).mapError fun
    | .malformed problem place => .manifest (.malformed problem place)
    | .longInteger digits => .longNumeral digits

/-- The value under a key. -/
def look (key : Text) (v : Json) : Except Failure Json :=
  match v with
  | .obj ms =>
    match Members.get? key ms with
    | some w => .ok w
    | none => .error (.manifest (.missingKey key))
  | v => .error (.manifest (.notKeyed v))

/-- The changes that a manifest lists, in whatever value that lists something. -/
def changes (v : Json) : Except Failure (List Json) := do
  let changes ← look "ops" v
  changes.listed.elim (throw (.keyed (.notListing changes))) pure

/-- The text of the path of a staged file. -/
def fileText : Json → Except Failure Text
  | .str t => .ok t
  | v => .error (.manifest (.notAName v))

end RecordStore.Manifest
