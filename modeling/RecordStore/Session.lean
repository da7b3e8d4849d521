import RecordStore.ChangeList
import RecordStore.Registry
import RecordStore.Repository

/-!
# RecordStore.Session

A session: one user at work on a repository, with the kinds that are registered and what the user
entered last.  A session that is over refuses further use.

The session also keeps what tells times and names apart: the clock, the day, and the counters that
new items and batches are named by.
-/

namespace RecordStore

/-! ## Clock and names -/

/-- A clock: the time it shows next, and the microseconds it advances at each reading, unless what
it was given for them is no length of time. -/
structure Clock where
  now : Timestamp
  tick : Except ClockFault Int

namespace Clock

/-- The most days of a length of time. -/
def dayLimit : Nat := 999999999

/-- A length of time in microseconds, if it is not past the limit. -/
def limited (microseconds : Int) : Except ClockFault Int :=
  let days := microseconds.fdiv 86400000000
  if dayLimit < days.natAbs then .error (.tooManyDays days) else .ok microseconds

/-- The microseconds of a fraction of a second, a half going to the even neighbour. -/
def fractionMicroseconds (x : Binary64) : Int :=
  match (x.scaled 1000000).fraction? with
  | some (n, d) => n.sign * Binary64.roundFraction n.natAbs d
  | none => 0

/-- The microseconds of a count of seconds.  The part of a second of a floating-point number is
scaled in floating-point numbers. -/
def microseconds : Json → Except ClockFault Int
  | .bool b => limited (if b then 1000000 else 0)
  | .int n => limited (n * 1000000)
  | .float .nan => .error .notANumber
  | .float (.infinite _) => .error .endless
  | .float x =>
    let whole := (x.fraction?.map fun (n, d) => n.tdiv d).getD 0
    limited (whole * 1000000 + fractionMicroseconds (x.shifted (-whole)))
  | v => .error (.notACount v)

/-- The clock after a reading. -/
def advance (c : Clock) : Except ClockFault Clock :=
  match c.tick with
  | .error e => .error e
  | .ok tick =>
    match c.now.later tick with
    | .ok t => .ok { c with now := t }
    | .error _ => .error .calendar

end Clock

/-- The identifier of the item with a number: its digits in groups of 8, 4, 4, 4 and 12. -/
def itemName (n : Nat) : Text :=
  let ds := hexDigits 32 n
  let part (start length : Nat) := (ds.drop start).take length
  Text.ofChars (['-'].intercalate [part 0 8, part 8 4, part 12 4, part 16 4, part 20 12])

/-- The name of the batch with a number. -/
def batchName (n : Nat) : Text := Text.ofChars (hexDigits 32 n)

/-! ## Sessions -/

/-- A session, with the disk that its repository is on. -/
structure Session where
  registry : Registry
  disk : Disk
  attached : Bool
  user : Option Text
  view : View
  markup : Text → Text
  input : Form
  closed : Bool
  clock : Clock
  today : Date
  nextItem : Nat
  nextBatch : Nat

namespace Session

/-- What payloads see of the session. -/
def surroundings (s : Session) : Surroundings where
  kinds := s.registry.kinds
  view := s.view
  markup := s.markup
  user := s.user
  input := s.input
  today := s.today

/-- The session must not be over. -/
def ensureOpen : Procedure Session Unit := do
  if (← Procedure.state).closed then
    Procedure.fail (.programming .sessionOver)

/-- The session must have a repository, and not be over. -/
def requireRepository : Procedure Session Unit := do
  ensureOpen
  unless (← Procedure.state).attached do
    Procedure.fail (.programming .noRepository)

/-- Take note of what the user entered. -/
def setInput (form : Form) : Procedure Session Unit := do
  ensureOpen
  Procedure.modify fun s => { s with input := form }

/-- End the session. -/
def close : Procedure Session Unit :=
  Procedure.modify fun s => { s with input := [], closed := true }

/-- A step on the disk. -/
def onDisk (p : Procedure Disk α) : Procedure Session α :=
  Procedure.onPart Session.disk (fun d s => { s with disk := d }) p

/-- The record of an identifier as it is stored, also when the session is over; there must be a
repository. -/
def stored? (ident : Text) : Procedure Session (Option Bytes) := do
  let s ← Procedure.state
  if s.attached then Procedure.ofExcept (Repository.read ident s.disk)
  else Procedure.fail (.absent .repository)

/-- Look at the disk. -/
def lookUp (f : Disk → Except Failure α) : Procedure Session α := do
  Procedure.ofExcept (f (← Procedure.state).disk)

/-- Read the clock. -/
def readClock : Procedure Session Timestamp := do
  let c := (← Procedure.state).clock
  let clock ← Procedure.ofExcept (c.advance.mapError .clock)
  Procedure.modify fun s => { s with clock }
  return c.now

/-- Name a new item. -/
def nameItem : Procedure Session Text := do
  let n := (← Procedure.state).nextItem
  Procedure.modify fun s => { s with nextItem := n + 1 }
  return itemName n

/-- Write changes to the repository as one batch, and give the batch's name. -/
def applyChanges (changes : List Change) : Procedure Session Text := do
  let n := (← Procedure.state).nextBatch
  Procedure.modify fun s => { s with nextBatch := n + 1 }
  onDisk (Repository.apply (batchName n) changes)

/-- Open a repository on the disk, which finishes what was interrupted. -/
def openRepository : Procedure Session Unit := do
  onDisk Repository.recover
  Procedure.modify fun s => { s with attached := true }

/-! ## Items -/

/-- An item of a kind, named by the session if no identifier is given. -/
def makeItem (kind : Text) (ident? : Option Text) (user : Option Text) :
    Procedure Session Item := do
  let registry := (← Procedure.state).registry
  discard (Procedure.ofExcept (registry.get kind))
  let ident ← match ident? with
    | some ident => pure ident
    | none => nameItem
  Procedure.ofExcept (registry.makeItem kind ident user)

/-- The item of a stored record. -/
def decodeItem (blob : Bytes) : Procedure Session Item := do
  (Registry.decodeItem blob (← Procedure.state).registry).lift

end Session

/-- Hand a change list over to the repository as one batch, if it holds anything. -/
def ChangeList.flush : Procedure (Session × ChangeList) (Option Text) := do
  let (_, l) ← Procedure.state
  if l.flushed then
    Procedure.fail (.programming .flushedTwice)
  else do
    let batch ←
      if l.changes.isEmpty then pure none
      else some <$> Procedure.onFirst (Session.applyChanges l.changes)
    Procedure.onSecond (Procedure.modify fun l => { l with flushed := true })
    return batch

end RecordStore
