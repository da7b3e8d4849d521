import RecordStore.Failure

/-!
# RecordStore.Procedure

Steps that change a state, may fail, and report to the journal.  A failing step keeps the changes
made before it failed: nothing is rolled back, so that a step which leaves its state alone on
failure does so by the order of its own parts.

`Procedure σ` is a monad (`LawfulMonad`).  Steps without a state of their own are `Traced`, and lift
into every procedure.
-/

namespace RecordStore

/-- What a step comes to: its result, the state after it, and the events it reported. -/
structure Outcome (σ α : Type) where
  result : Except Failure α
  state : σ
  events : List Event

/-- A step on a state. -/
def Procedure (σ α : Type) := σ → Outcome σ α

namespace Procedure

/-- Run a step on a state. -/
def run (p : Procedure σ α) (s : σ) : Outcome σ α := p s

/-- What follows a step that has come to an outcome. -/
def andThen (o : Outcome σ α) (f : α → Procedure σ β) : Outcome σ β :=
  match o.result with
  | .ok a =>
    let next := f a o.state
    ⟨next.result, next.state, o.events ++ next.events⟩
  | .error e => ⟨.error e, o.state, o.events⟩

instance : Monad (Procedure σ) where
  pure a := fun s => ⟨.ok a, s, []⟩
  bind p f := fun s => andThen (p s) f

theorem run_pure (a : α) (s : σ) : run (pure a : Procedure σ α) s = ⟨.ok a, s, []⟩ := rfl

theorem run_bind (p : Procedure σ α) (f : α → Procedure σ β) (s : σ) :
    run (p >>= f) s = andThen (run p s) f := rfl

theorem andThen_andThen (o : Outcome σ α) (f : α → Procedure σ β) (g : β → Procedure σ γ) :
    andThen (andThen o f) g = andThen o fun a s => andThen (f a s) g := by
  obtain ⟨r, s, es⟩ := o
  cases r with
  | error e => rfl
  | ok a =>
    simp only [andThen]
    cases (f a s).result <;> simp

theorem andThen_pure (o : Outcome σ α) : andThen o (fun a => (pure a : Procedure σ α)) = o := by
  obtain ⟨r, s, es⟩ := o
  cases r <;> simp [andThen, pure]

instance : LawfulMonad (Procedure σ) :=
  .mk' _ (fun p => funext fun s => andThen_pure (p s))
    (fun a f => funext fun s => by simp [bind, pure, andThen])
    (fun p f g => funext fun s => andThen_andThen (p s) f g)

/-! ## Steps -/

/-- Report an event. -/
def report (e : Event) : Procedure σ Unit := fun s => ⟨.ok (), s, [e]⟩

/-- Fail; the journal is told about failures of the store. -/
def fail (f : Failure) : Procedure σ α :=
  fun s => ⟨.error f, s, (f.report?.map Report.event).toList⟩

/-- A result that was reached without changes. -/
def ofExcept : Except Failure α → Procedure σ α
  | .ok a => pure a
  | .error f => fail f

/-- The state. -/
def state : Procedure σ σ := fun s => ⟨.ok s, s, []⟩

/-- Replace the state. -/
def put (s : σ) : Procedure σ Unit := fun _ => ⟨.ok (), s, []⟩

/-- Change the state. -/
def modify (f : σ → σ) : Procedure σ Unit := fun s => ⟨.ok (), f s, []⟩

/-- The result of a step, whether it succeeds or fails. -/
def attempt (p : Procedure σ α) : Procedure σ (Except Failure α) := fun s =>
  let o := p s
  ⟨.ok o.result, o.state, o.events⟩

/-- Run a step on a part of the state. -/
def onPart (part : σ → τ) (replace : τ → σ → σ) (p : Procedure τ α) : Procedure σ α := fun s =>
  let o := p (part s)
  ⟨o.result, replace o.state s, o.events⟩

/-- Run a step on a value next to the state, and give the value after it. -/
def withLocal (t : τ) (p : Procedure (σ × τ) α) : Procedure σ (α × τ) := fun s =>
  let o := p (s, t)
  ⟨o.result.map (·, o.state.2), o.state.1, o.events⟩

/-- A step on the first of two states. -/
def onFirst (p : Procedure σ α) : Procedure (σ × τ) α := onPart Prod.fst (fun s st => (s, st.2)) p

/-- A step on the second of two states. -/
def onSecond (p : Procedure τ α) : Procedure (σ × τ) α := onPart Prod.snd (fun t st => (st.1, t)) p

/-- Run a step on a value, and give the value after it. -/
def runOn (t : τ) (p : Procedure τ α) : Procedure σ (α × τ) := withLocal t (onSecond p)

end Procedure

/-- A step without a state of its own. -/
abbrev Traced (α : Type) := Procedure Unit α

/-- A step without a state of its own, as a step on any state. -/
def Traced.lift (p : Traced α) : Procedure σ α := fun s =>
  let o := p ()
  ⟨o.result, s, o.events⟩

instance : MonadLift (Procedure Unit) (Procedure σ) := ⟨Traced.lift⟩

end RecordStore
