import RecordStore.Utf8.Escaped

/-!
# RecordStore.Path

Paths as lists of names, from the root on; the root is the empty path.  In the text of a path the
names stand between slashes.  An empty name and a single point lead nowhere and are left out.  Two
points lead to the directory above; they are kept, because a walk can only take them from a
directory that is there.

    a/b   a//b   ./a/b/   a/./b    all are the names a, b

Not every text can be used as the text of a path: below it is bytes, that end at a null, and a name
has at most 255 of them (`onDisk`, `isLong`).
-/

namespace RecordStore

/-- A path from the root. -/
abbrev Path := List Text

namespace Path

/-- The name that leads to the directory above. -/
def parentName : Text := ".."

/-- The names in the text of a path. -/
def ofText (t : Text) : Path :=
  (Text.splitOn (.char '/') t).filter fun name => name ≠ [] ∧ name ≠ [.char '.']

/-- Whether the text of a path leads from the root of all, and not from where one is. -/
def isAbsolute (t : Text) : Bool := t.head? = some (.char '/')

/-! ## Names of files -/

/-- Why nothing can be at the text of a path. -/
inductive Fault where
  | unencodable (e : Utf8.EncodeFault)
  | null
deriving DecidableEq

/-- The path that a text leads along, with the names as a directory lists them. -/
def onDisk (t : Text) : Except Fault Path := do
  let bytes ← (Utf8.encodeEscaped t).mapError .unencodable
  if 0 ∈ bytes then throw .null else return ofText (Utf8.decodeEscaped bytes)

/-- The most bytes that a name has. -/
def nameLimit : Nat := 255

/-- Whether a name has more bytes than the name of a file can. -/
def isLong (name : Text) : Bool :=
  match Utf8.encodeEscaped name with
  | .ok bytes => nameLimit < bytes.length
  | .error _ => false

end Path

end RecordStore
