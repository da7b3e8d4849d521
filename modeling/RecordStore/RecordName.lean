import RecordStore.Failure
import RecordStore.Path

/-!
# RecordStore.RecordName

The names of record files.  A record of kind `k` and identifier `i` is the file `k-@i.json`.  The
name is cut at its first `-@`, so a kind cannot hold that separator and an identifier can.
-/

namespace RecordStore.RecordName

/-- What stands between kind and identifier. -/
def separator : Text := "-@"

/-- The ending of record files. -/
def suffix : Text := ".json"

/-- The name of a record without its ending. -/
def stem (kind ident : Text) : Text := kind ++ separator ++ ident

/-- The name of a record file. -/
def file (kind ident : Text) : Text := stem kind ident ++ suffix

/-- The kind and the identifier in a name without ending. -/
def split? (stem : Text) : Option (Text × Text) :=
  (Text.cutAt? separator stem).filter fun (kind, ident) => kind ≠ [] ∧ ident ≠ []

/-- The kind and the identifier that a name without ending holds. -/
def ofStem (stem : Text) : Except Failure (Text × Text) :=
  match split? stem with
  | some r => .ok r
  | none => .error (.recordName stem)

/-- The kind and the identifier in the name of a record file. -/
def ofFile? (name : Text) : Option (Text × Text) :=
  (Text.dropPrefix? suffix.reverse name.reverse).bind fun rest => split? rest.reverse

/-! ## Paths -/

/-- The name at the end of a path without its ending; a path without names has an empty one.  The
ending begins at the last point, unless that is the first or the last character of the name. -/
def pathStem (path : Text) : Text :=
  let name := (Path.ofText path).getLast?.getD []
  let ending := name.reverse.takeWhile (· ≠ .char '.')
  let cut := name.length - ending.length - 1
  let whole := ending.length = name.length ∨ ending = [] ∨ cut = 0
  if whole then name else name.take cut

end RecordStore.RecordName
