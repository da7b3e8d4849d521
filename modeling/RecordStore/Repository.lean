import RecordStore.Disk.Program
import RecordStore.RecordName
import RecordStore.Repository.Manifest

/-!
# RecordStore.Repository

A repository of records: a directory that holds one file per record, and below `.pending` one
directory per batch that is being written.

    simple-@a.json                    the record of item a
    .pending/1/000000.json            a staged record of batch 1
    .pending/1/manifest.json          the changes of batch 1, once it is committed

All writing goes through `apply`.  It stages every record of a batch, writes the manifest last and
under its own name only when it is whole, and then moves the staged records into place.  Opening a
repository finishes what was interrupted (`recover`): a batch with a manifest is replayed, one
without is dropped.  Both are runs of programs, `applyProgram` and `recoverProgram`.
-/

namespace RecordStore

open Disk (Program)
open Disk.Program (step discardFile)

namespace Repository

/-- The name of the directory of batches. -/
def pendingName : Text := ".pending"

/-- The directory of batches. -/
def pending : Path := [pendingName]

/-- The directory of a batch. -/
def batchPath (batch : Text) : Path := [pendingName, batch]

/-! ## Reading -/

/-- A record file: the kind and the identifier in its name, and the name. -/
structure RecordFile where
  kind : Text
  ident : Text
  name : Text
deriving DecidableEq

/-- Whether the text of a path leads from the root to a record file, by its name alone. -/
def RecordFile.standsAt (f : RecordFile) (t : Text) : Bool :=
  !Path.isAbsolute t && Path.ofText t == [f.name]

/-- The record file of a name, if it is the name of one. -/
def recordFile? (name : Text) : Option RecordFile :=
  (RecordName.ofFile? name).map fun (kind, ident) => ⟨kind, ident, name⟩

/-- The record files, in the order of their names. -/
def recordFiles (d : Disk) : List RecordFile := (d.names []).filterMap recordFile?

/-- The record file of an identifier: the first of those that there are. -/
def find? (ident : Text) (d : Disk) : Option RecordFile :=
  (recordFiles d).find? fun f => f.ident == ident

/-- Whether there is a record of an identifier. -/
def exists? (ident : Text) (d : Disk) : Bool := (find? ident d).isSome

/-- The bytes of the record of an identifier, if there is one. -/
def read (ident : Text) (d : Disk) : Except Failure (Option Bytes) :=
  match find? ident d with
  | none => .ok none
  | some f => ((d.read [f.name]).map some).mapError .storage

/-- Kind and identifier of every record, or of those of one kind. -/
def entries (kind? : Option Text) (d : Disk) : List (Text × Text) :=
  ((recordFiles d).filter fun f => kind?.all (· == f.kind)).map fun f => (f.kind, f.ident)

/-! ## Replaying -/

/-- Take away the record file that a change replaces or deletes. -/
def dropFile : Option RecordFile → Program Unit
  | none => pure ()
  | some f => discardFile [f.name]

/-- The record file of a value that a manifest gives as an identifier. -/
def current? (ident : Json) (d : Disk) : Option RecordFile :=
  match ident with
  | .str t => find? t d
  | _ => none

/-- The failure of a name that no file can have. -/
def nameFailure : Path.Fault → Failure
  | .unencodable e => .unencodable e
  | .null => .change .nullInName

/-- Where a record of a name comes to stand.  The name need not be one that a file can have: then the
record stands elsewhere, or the name is refused. -/
def recordPlace (name : Text) (d : Disk) : Except Failure Disk.Place := do
  let names ← (Path.onDisk name).mapError nameFailure
  (d.landing (Disk.start [] name) names).mapError .storage

/-- Move the staged file of a record into place.  A record whose staged file is gone is in place
already. -/
def placeStaged (batch : Path) (file name : Text) : Program Unit := do
  match (← Program.disk).look batch file with
  | none => return
  | some source => moveTo source (← Program.ofExcept (recordPlace name (← Program.disk)))
where
  -- A directory cannot be moved by the way up that leads to it.
  moveTo : Disk.Place → Disk.Place → Program Unit
    | .above, _ => Program.failed (.storage .busy)
    | .inside staged, target =>
      if (Path.ofText file).getLast? = some Path.parentName then
        Program.failed (.storage .busy)
      else
        match target with
        | .inside p => step (.move staged p)
        | .above => step (.moveOut staged)

/-- Do one change of a committed batch. -/
def replayChange (batch : Path) (change : Json) : Program Unit := do
  let ident ← Program.ofExcept (Manifest.look "ident" change)
  let current := current? ident (← Program.disk)
  match ← Program.ofExcept (Manifest.look "op" change) with
  | .str op =>
    if op = Operation.delete.name then
      dropFile current
    else
      storeRecord ident current
  | _ => storeRecord ident current
where
  storeRecord (ident : Json) (current : Option RecordFile) : Program Unit := do
    let kind ← Program.ofExcept (Manifest.look "kind" change)
    let name := RecordName.file kind.shown ident.shown
    let file ← Program.ofExcept (Manifest.look "file" change)
    placeStaged batch (← Program.ofExcept (Manifest.fileText file)) name
    if current.any fun f => !f.standsAt name then
      dropFile current

/-- Do the changes of a committed batch, one after the other. -/
def replayChanges (batch : Path) : List Json → Program Unit
  | [] => pure ()
  | change :: rest => do
    replayChange batch change
    replayChanges batch rest

/-- Finish a committed batch, and take its directory away. -/
def replay (batch : Path) : Program Unit := do
  let content ← Program.ofExcept <|
    ((← Program.disk).read (batch ++ [Manifest.fileName])).mapError .storage
  let manifest ← Program.ofExcept (Manifest.read content)
  let changes ← Program.ofExcept (Manifest.changes manifest)
  replayChanges batch changes
  step (.removeTree batch)

/-! ## Writing -/

/-- Stage the bytes of the changes from number `n` on. -/
def stage (batch : Path) : Nat → List Change → Program Unit
  | _, [] => pure ()
  | n, c :: cs => do
    match c.data? with
    | some data => step (.write (batch ++ [Manifest.stagedName n]) data)
    | none => pure ()
    stage batch (n + 1) cs

/-- Make the directory of a batch, and the directory of batches if it is missing. -/
def makeBatch (batch : Path) : Program Unit := do
  unless (← Program.disk).holds pending do
    step (.makeDirectory pending)
  step (.makeDirectory batch)

/-- The program that writes a batch of changes: stage them, commit them, and put them in place. -/
def applyProgram (batch : Text) (changes : List Change) : Program Text := do
  let directory := batchPath batch
  makeBatch directory
  stage directory 0 changes
  let manifest ← Program.ofExcept (Manifest.encode batch changes)
  step (.write (directory ++ [Manifest.draftName]) manifest)
  step (.move (directory ++ [Manifest.draftName]) (directory ++ [Manifest.fileName]))
  Program.report ⟨.info, "repository", "batch committed",
    [("batch", batch.quoted), ("writes", showNat changes.length)]⟩
  replay directory
  return batch

/-- Write a batch of changes as a unit, under a name that no batch has had. -/
def apply (batch : Text) (changes : List Change) : Procedure Disk Text :=
  (applyProgram batch changes).run

/-! ## Recovery -/

/-- Finish or drop the batch of a name. -/
def recoverBatch (batch : Text) : Program Unit := do
  let directory := batchPath batch
  let d ← Program.disk
  if d.isDirectory directory then
    if d.holds (directory ++ [Manifest.fileName]) then
      Program.report ⟨.warning, "repository", "replaying committed batch",
        [("batch", batch.quoted)]⟩
      replay directory
    else
      Program.report ⟨.warning, "repository", "discarding uncommitted batch",
        [("batch", batch.quoted)]⟩
      step (.removeTree directory)

/-- Finish or drop batches, one after the other. -/
def recoverBatches : List Text → Program Unit
  | [] => pure ()
  | batch :: rest => do
    recoverBatch batch
    recoverBatches rest

/-- The program that opens a repository: finish the committed batches and drop the others, in the
order of their names. -/
def recoverProgram : Program Unit := do
  let d ← Program.disk
  if d.isDirectory pending then
    recoverBatches (d.names pending)

/-- Open a repository, which finishes what was interrupted. -/
def recover : Procedure Disk Unit := recoverProgram.run

end Repository

end RecordStore
