import RecordStore.Path
import RecordStore.Procedure

/-!
# RecordStore.Disk

A tree of files and directories, as a finite map from paths to nodes, and the steps that change it.
Each step is atomic: it is done as a whole, or refused and nothing changes.

The root is the empty path and always a directory.  What is above the root is not known: a walk
that leaves the tree by the way up finds no names there, and what is moved there is gone.
-/

namespace RecordStore

/-- What stands at a path. -/
inductive Node where
  | file (content : Bytes)
  | directory
deriving DecidableEq

/-- A tree of files and directories. -/
structure Disk where
  nodes : List (Path × Node) := []
deriving DecidableEq

namespace Disk

/-! ## Looking -/

/-- What stands at a path. -/
def node? (p : Path) (d : Disk) : Option Node :=
  if p = [] then some .directory else d.nodes.lookup p

/-- The content of a file. -/
def read (p : Path) (d : Disk) : Except StorageFault Bytes :=
  match d.node? p with
  | some (.file content) => .ok content
  | some .directory => .error .isDirectory
  | none => .error .missing

/-- Whether something stands at a path. -/
def holds (p : Path) (d : Disk) : Bool := (d.node? p).isSome

/-- Whether a directory stands at a path. -/
def isDirectory (p : Path) (d : Disk) : Bool := d.node? p == some .directory

/-- The name of a path that lies directly in a directory. -/
def childName? (directory p : Path) : Option Text :=
  match Text.dropPrefix? directory p with
  | some [name] => some name
  | _ => none

/-- The names of what lies directly in a directory, in the order of their code points. -/
def names (directory : Path) (d : Disk) : List Text :=
  (d.nodes.filterMap fun n => childName? directory n.1).mergeSort Text.ble

/-- Whether a path is a directory's own, or lies in it at some depth. -/
def encloses (directory p : Path) : Bool := (Text.dropPrefix? directory p).isSome

theorem encloses_iff {directory p : Path} :
    encloses directory p = true ↔ ∃ rest, p = directory ++ rest := by
  simp only [encloses, Option.isSome_iff_exists, Text.dropPrefix?_eq_some_iff]

/-! ## Walking -/

/-- Where a walk has come: to a path of the tree, or above its root. -/
inductive Place where
  | inside (p : Path)
  | above
deriving DecidableEq

/-- Where the text of a path leads from: the given directory, or above the root for a text that does
not lead from where one is. -/
def start (directory : Path) (t : Text) : Place :=
  if Path.isAbsolute t then .above else .inside directory

/-- Go on by one name, from a directory. -/
def enter (d : Disk) (place : Place) (name : Text) : Except StorageFault Place :=
  match place with
  | .above => if name = Path.parentName then .ok .above else .error .missing
  | .inside p =>
    match d.node? p with
    | none => .error .missing
    | some (.file _) => .error .notDirectory
    | some .directory =>
      if name ≠ Path.parentName then .ok (.inside (p ++ [name]))
      else .ok (if p = [] then .above else .inside p.dropLast)

/-- Go on by one name that something is to get, so that it must not be too long. -/
def enterNew (d : Disk) (place : Place) (name : Text) : Except StorageFault Place := do
  let next ← d.enter place name
  if Path.isLong name then throw .busy else return next

/-- What is found along the text of a path, from a directory.  A text that can be no path leads to
nothing. -/
def look (d : Disk) (directory : Path) (t : Text) : Option Place :=
  match Path.onDisk t with
  | .error _ => none
  | .ok names =>
    (names.foldlM d.enter (start directory t)).toOption.filter fun
      | .inside p => d.holds p
      | .above => true

/-- Where something comes to stand that is moved along names.  What gets a name above the root is
out of the tree. -/
def landing (d : Disk) (place : Place) (names : Path) : Except StorageFault Place := do
  match ← names.dropLast.foldlM d.enterNew place with
  | .above => return .above
  | .inside _ => names.foldlM d.enterNew place

/-! ## Changing -/

/-- Put a node at a path. -/
def put (p : Path) (n : Node) (d : Disk) : Disk :=
  ⟨d.nodes.filter (fun e => e.1 ≠ p) ++ [(p, n)]⟩

/-- Take away what stands at a path. -/
def erase (p : Path) (d : Disk) : Disk := ⟨d.nodes.filter fun e => e.1 ≠ p⟩

/-- Take away a directory with all that it holds. -/
def eraseTree (p : Path) (d : Disk) : Disk := ⟨d.nodes.filter fun e => !encloses p e.1⟩

/-- A node of a tree whose root goes to another path. -/
def moved (source target : Path) (e : Path × Node) : Path × Node :=
  match Text.dropPrefix? source e.1 with
  | some rest => (target ++ rest, e.2)
  | none => e

/-- Move a tree to a path where nothing stands. -/
def moveTree (source target : Path) (d : Disk) : Disk := ⟨d.nodes.map (moved source target)⟩

/-! ## Steps -/

/-- A step that changes the tree. -/
inductive Step where
  | makeDirectory (p : Path)
  | write (p : Path) (content : Bytes)
  | move (source target : Path)
  | moveOut (source : Path)
  | remove (p : Path)
  | removeTree (p : Path)
deriving DecidableEq

/-- The directory of a path must be there. -/
def inDirectory (p : Path) (d : Disk) : Except StorageFault Unit :=
  match d.node? p.dropLast with
  | some .directory => .ok ()
  | some (.file _) => .error .notDirectory
  | none => .error .missing

/-- Do a step.  What is moved onto itself stays, and nothing is moved onto a directory around it or
into itself. -/
def perform (d : Disk) : Step → Except StorageFault Disk
  | .makeDirectory p => do
    inDirectory p d
    if d.holds p then throw .alreadyExists else return d.put p .directory
  | .write p content => do
    inDirectory p d
    if d.isDirectory p then throw .isDirectory else return d.put p (.file content)
  | .move source target =>
    match d.node? source with
    | none => .error .missing
    | some node =>
      if source = target then .ok d
      else if encloses source target || encloses target source then .error .busy
      else
        match node, d.node? target with
        | .file content, target? =>
          if target? = some .directory then .error .isDirectory
          else .ok ((d.erase source).put target (.file content))
        | .directory, some (.file _) => .error .notDirectory
        | .directory, some .directory =>
          if d.names target = [] then .ok ((d.erase target).moveTree source target)
          else .error .busy
        | .directory, none => .ok (d.moveTree source target)
  | .moveOut source => if d.holds source then .ok (d.eraseTree source) else .error .missing
  | .remove p =>
    match d.node? p with
    | none => .error .missing
    | some .directory => .error .isDirectory
    | some (.file _) => .ok (d.erase p)
  | .removeTree p => .ok (d.eraseTree p)

/-- Do a step; a refusal is a failure. -/
def step (s : Step) : Procedure Disk Unit := fun d =>
  match d.perform s with
  | .ok d' => ⟨.ok (), d', []⟩
  | .error e => Procedure.run (Procedure.fail (.storage e)) d

end Disk

end RecordStore
