import RecordStore.Disk

/-!
# RecordStore.Disk.Program

Programs on a disk, as data: what a program does first, and how it goes on.  A program changes the
disk by single steps only, so that besides its run (`Program.run`) the steps of that run are known
one by one (`Program.steps`), and with them the places where it can be cut.
-/

namespace RecordStore

namespace Disk

/-- A program on a disk. -/
inductive Program (α : Type) where
  | done (a : α)
  | failed (f : Failure)
  | told (e : Event) (next : Program α)
  | looked (next : Disk → Program α)
  | stepped (s : Step) (next : Program α)

namespace Program

/-- Go on with another program behind one. -/
def andThen (f : α → Program β) : Program α → Program β
  | done a => f a
  | failed e => failed e
  | told e p => told e (p.andThen f)
  | looked next => looked fun d => (next d).andThen f
  | stepped s p => stepped s (p.andThen f)

instance : Monad Program where
  pure := done
  bind p f := p.andThen f

theorem andThen_done (p : Program α) : p.andThen done = p := by
  induction p with
  | done | failed => rfl
  | told _ _ ih | stepped _ _ ih => rw [andThen, ih]
  | looked next ih => rw [andThen, funext ih]

theorem andThen_andThen (p : Program α) (f : α → Program β) (g : β → Program γ) :
    (p.andThen f).andThen g = p.andThen fun a => (f a).andThen g := by
  induction p with
  | done | failed => rfl
  | told _ _ ih | stepped _ _ ih => rw [andThen, andThen, andThen, ih]
  | looked next ih => rw [andThen, andThen, andThen, funext ih]

instance : LawfulMonad Program := .mk' _ andThen_done (fun _ _ => rfl) andThen_andThen

/-! ## Parts -/

/-- The disk as it is. -/
def disk : Program Disk := looked done

/-- Do a step. -/
def step (s : Step) : Program Unit := stepped s (done ())

/-- Report an event. -/
def report (e : Event) : Program Unit := told e (done ())

/-- A result that was reached without changes. -/
def ofExcept : Except Failure α → Program α
  | .ok a => done a
  | .error f => failed f

/-- Take away a file, if it is there. -/
def discardFile (p : Path) : Program Unit := do
  if (← disk).holds p then
    step (.remove p)

/-! ## Running -/

/-- Run a program. -/
def run : Program α → Procedure Disk α
  | done a => pure a
  | failed f => Procedure.fail f
  | told e p => do
    Procedure.report e
    p.run
  | looked next => do (next (← Procedure.state)).run
  | stepped s p => do
    Disk.step s
    p.run

/-- The steps that a program does from a disk on, up to its end or to the step that is refused. -/
def steps : Program α → Disk → List Step
  | done _, _ | failed _, _ => []
  | told _ p, d => p.steps d
  | looked next, d => (next d).steps d
  | stepped s p, d =>
    match d.perform s with
    | .ok d' => s :: p.steps d'
    | .error _ => []

end Program

end Disk

end RecordStore
