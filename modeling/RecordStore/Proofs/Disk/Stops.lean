import RecordStore.Disk.Program
import RecordStore.Proofs.Procedure

/-!
# RecordStore.Proofs.Disk.Stops

Where a program on a disk comes to, and where it can be cut.

* `Program.Runs p d ss a d'`: from `d` on the program `p` comes to its end by the steps `ss`, with
  the answer `a` and the disk `d'`.
* `Program.Stops p d complete d'`: the program can be cut when the steps `complete` are done, and
  the disk is then `d'`.  The next step may have been begun: a write may leave any bytes in its
  file, and of a tree that is taken away any entries may be gone already, each before the
  directory around it (`Disk.Torn`).

Both follow the parts of a program: `Runs.andThen` joins runs, and `Stops.of_andThen` tells in which
part a program was cut.
-/

namespace RecordStore.Disk

/-! ## Steps one after the other -/

/-- The disk after steps, up to one that is refused. -/
def after (d : Disk) : List Step → Disk
  | [] => d
  | s :: ss =>
    match d.perform s with
    | .ok d' => d'.after ss
    | .error _ => d

/-- The entries of a tree are taken away one by one, each when nothing is left below it. -/
inductive Clearing (p : Path) (d : Disk) : Disk → Prop
  | start : Clearing p d d
  | entry {d' : Disk} (q : Path) (before : Clearing p d d') (inside : encloses p q = true)
      (leaf : ∀ rest, rest ≠ [] → d'.node? (q ++ rest) = none) : Clearing p d (d'.erase q)

/-- What a step can leave that was begun and not completed. -/
inductive Torn (d : Disk) : Step → Disk → Prop
  | write (p : Path) (content torn : Bytes) : Torn d (.write p content) (d.put p (.file torn))
  | removeTree (p : Path) {d' : Disk} (h : Clearing p d d') : Torn d (.removeTree p) d'

/-- A step that is done as a whole or not at all. -/
def Step.Whole (s : Step) : Prop := ∀ d d', ¬ Torn d s d'

theorem Step.whole_move (source target : Path) : (move source target).Whole := nofun

theorem Step.whole_remove (p : Path) : (remove p).Whole := nofun

namespace Program

@[simp] theorem done_bind (a : α) (f : α → Program β) : (done a >>= f) = f a := rfl

/-- Programs one after the other run one after the other. -/
theorem run_bind (p : Program α) (f : α → Program β) :
    (p >>= f).run = p.run >>= fun a => (f a).run := by
  change (p.andThen f).run = _
  induction p with
  | done a => rfl
  | failed e => rfl
  | told e p ih =>
      simp only [andThen, run, ih, bind_assoc]
  | looked next ih =>
      simp only [andThen, run, ih, bind_assoc]
  | stepped s p ih =>
      simp only [andThen, run, ih, bind_assoc]

theorem yields_looked_iff {next : Disk → Program α} {d d' : Disk} {r : Except Failure α} :
    (looked next).run.Yields d r d' ↔ (next d).run.Yields d r d' := Iff.rfl

theorem yields_told_iff {e : Event} {p : Program α} {d d' : Disk} {r : Except Failure α} :
    (told e p).run.Yields d r d' ↔ p.run.Yields d r d' := Iff.rfl

/-- A program ends where a step of it is refused. -/
theorem yields_of_refused (p : Program α) {s : Step} {d : Disk} {e : StorageFault}
    (h : d.perform s = .error e) : (stepped s p).run.Yields d (.error (.storage e)) d := by
  have hstep : (Disk.step s).Yields d (.error (.storage e)) d := by
    simp [Procedure.Yields, Disk.step, h, Procedure.fail, Procedure.run]
  exact hstep.bind_error

/-- A program of two parts does nothing when its first part fails before its first step. -/
theorem steps_bind_of_refused {p : Program α} {f : α → Program β} {d d' : Disk} {e : Failure}
    (hsteps : p.steps d = []) (h : p.run.Yields d (.error e) d') : (p >>= f).steps d = [] := by
  induction p with
  | done a => cases h.1
  | failed e => rfl
  | told e p ih => exact ih hsteps h
  | looked next ih => exact ih d hsteps h
  | stepped s p ih =>
      change (stepped s (p.andThen f)).steps d = []
      rw [steps] at hsteps ⊢
      split at hsteps
      · cases hsteps
      · rfl

/-! ## Runs -/

/-- From a disk a program does some steps, answers and leaves a disk. -/
inductive Runs : Program α → Disk → List Step → α → Disk → Prop
  | done (a : α) (d : Disk) : Runs (.done a) d [] a d
  | told {p : Program α} {d d' : Disk} {ss : List Step} {a : α} (e : Event)
      (h : Runs p d ss a d') : Runs (.told e p) d ss a d'
  | looked {next : Disk → Program α} {d d' : Disk} {ss : List Step} {a : α}
      (h : Runs (next d) d ss a d') : Runs (.looked next) d ss a d'
  | stepped {p : Program α} {d d₁ d' : Disk} {s : Step} {ss : List Step} {a : α}
      (hs : d.perform s = .ok d₁) (h : Runs p d₁ ss a d') : Runs (.stepped s p) d (s :: ss) a d'

section Runs

variable {p : Program α} {d d₁ d' : Disk} {ss ss' : List Step} {a : α}

theorem Runs.steps_eq (h : p.Runs d ss a d') : p.steps d = ss := by
  induction h with
  | done => rfl
  | told _ _ ih | looked _ ih => exact ih
  | stepped hs _ ih => rw [steps, hs]; simp only [ih]

theorem Runs.result_eq (h : p.Runs d ss a d') : (p.run d).result = .ok a := by
  induction h with
  | done => rfl
  | told e _ ih => simpa [run, bind, Procedure.andThen, Procedure.report] using ih
  | looked _ ih => simpa [run, bind, Procedure.andThen, Procedure.state] using ih
  | stepped hs _ ih => simpa [run, bind, Procedure.andThen, Disk.step, hs] using ih

theorem Runs.state_eq (h : p.Runs d ss a d') : (p.run d).state = d' := by
  induction h with
  | done => rfl
  | told e _ ih => simpa [run, bind, Procedure.andThen, Procedure.report] using ih
  | looked _ ih => simpa [run, bind, Procedure.andThen, Procedure.state] using ih
  | stepped hs _ ih => simpa [run, bind, Procedure.andThen, Disk.step, hs] using ih

theorem Runs.yields (h : p.Runs d ss a d') : p.run.Yields d (.ok a) d' := ⟨h.result_eq, h.state_eq⟩

/-- The steps of a run lead to the disk that it leaves. -/
theorem Runs.after_eq (h : p.Runs d ss a d') : d.after ss = d' := by
  induction h with
  | done => rfl
  | told _ _ ih | looked _ ih => exact ih
  | stepped hs _ ih => simp only [after, hs, ih]

theorem Runs.andThen {f : α → Program β} {b : β} (h : p.Runs d ss a d₁)
    (hf : (f a).Runs d₁ ss' b d') : (p >>= f).Runs d (ss ++ ss') b d' := by
  induction h with
  | done => exact hf
  | told e _ ih => exact .told e (ih hf)
  | looked _ ih => exact .looked (ih hf)
  | stepped hs _ ih => exact .stepped hs (ih hf)

theorem Runs.step {s : Step} (hs : d.perform s = .ok d') :
    (Program.step s).Runs d [s] () d' := .stepped hs (.done () d')

end Runs

/-- Every step that a program can do has a property. -/
def Does (P : Step → Prop) : Program α → Prop
  | done _ | failed _ => True
  | told _ p => p.Does P
  | looked next => ∀ d, (next d).Does P
  | stepped s p => P s ∧ p.Does P

theorem Does.andThen {P : Step → Prop} {p : Program α} {f : α → Program β} (h : p.Does P)
    (hf : ∀ a, (f a).Does P) : (p >>= f).Does P := by
  induction p with
  | done a => exact hf a
  | failed e => trivial
  | told e p ih => exact ih h
  | looked next ih => exact fun d => ih d (h d)
  | stepped s p ih => exact ⟨h.1, ih h.2⟩

theorem Does.of_mem_steps {P : Step → Prop} {p : Program α} (h : p.Does P) {d : Disk} {s : Step}
    (hs : s ∈ p.steps d) : P s := by
  induction p generalizing d with
  | done a => cases hs
  | failed e => cases hs
  | told e p ih => exact ih h hs
  | looked next ih => exact ih d (h d) hs
  | stepped t p ih =>
      rw [steps] at hs
      split at hs
      · rcases List.mem_cons.1 hs with rfl | hs
        · exact h.1
        · exact ih h.2 hs
      · cases hs

/-! ## Cuts -/

/-- A program can be cut when some of its steps are complete, the next one being begun or not. -/
def Stops (p : Program α) (d : Disk) (complete : List Step) (d' : Disk) : Prop :=
  ∃ rest, p.steps d = complete ++ rest ∧
    (d' = d.after complete ∨ ∃ s ∈ rest.head?, (d.after complete).Torn s d')

section Stops

variable {p : Program α} {d d' : Disk} {complete : List Step}

/-- A program can be cut before it begins. -/
theorem Stops.start (p : Program α) (d : Disk) : p.Stops d [] d := ⟨p.steps d, rfl, .inl rfl⟩

theorem Stops.of_no_steps (h : p.Stops d complete d') (hp : p.steps d = []) :
    complete = [] ∧ d' = d := by
  obtain ⟨rest, hsteps, hd⟩ := h
  rw [hp, eq_comm, List.append_eq_nil_iff] at hsteps
  obtain ⟨rfl, rfl⟩ := hsteps
  simpa [after] using hd

theorem stops_told_iff {e : Event} :
    (told e p).Stops d complete d' ↔ p.Stops d complete d' := Iff.rfl

theorem stops_looked_iff {next : Disk → Program α} :
    (looked next).Stops d complete d' ↔ (next d).Stops d complete d' := Iff.rfl

theorem stops_stepped_iff {s : Step} :
    (stepped s p).Stops d complete d' ↔
      (complete = [] ∧ (d' = d ∨ (∃ d₁, d.perform s = .ok d₁) ∧ d.Torn s d')) ∨
      ∃ d₁ more, d.perform s = .ok d₁ ∧ complete = s :: more ∧ p.Stops d₁ more d' := by
  unfold Stops
  cases hs : d.perform s with
  | error e => simp [steps, hs]; grind [after]
  | ok d₁ =>
      simp only [steps, hs]
      constructor
      · rintro ⟨rest, hsteps, hd⟩
        cases complete with
        | nil =>
            left
            rw [List.nil_append] at hsteps
            subst hsteps
            simpa [after] using hd
        | cons s' more =>
            right
            rw [List.cons_append, List.cons.injEq] at hsteps
            obtain ⟨rfl, hrest⟩ := hsteps
            exact ⟨d₁, more, rfl, rfl, rest, hrest, by simpa [after, hs] using hd⟩
      · rintro (⟨rfl, hd⟩ | ⟨d₂, more, heq, rfl, rest, hrest, hd⟩)
        · exact ⟨_, rfl, by simpa [after] using hd⟩
        · cases heq
          exact ⟨rest, by rw [hrest, List.cons_append], by simpa [after, hs] using hd⟩

/-- A program of two parts can be cut in the first. -/
theorem Stops.andThen (h : p.Stops d complete d') (f : α → Program β) :
    (p >>= f).Stops d complete d' := by
  induction p generalizing d complete with
  | done a | failed e =>
      obtain ⟨rfl, rfl⟩ := h.of_no_steps rfl
      exact ⟨_, rfl, .inl rfl⟩
  | told e p ih => exact ih (d := d) h
  | looked next ih => exact ih d (d := d) h
  | stepped s p ih =>
      rcases stops_stepped_iff.1 h with h | ⟨d₁, more, hs, rfl, hp⟩
      · exact stops_stepped_iff.2 (.inl h)
      · exact stops_stepped_iff.2 (.inr ⟨d₁, more, hs, rfl, ih hp⟩)

/-- A program of two parts can be cut in the second. -/
theorem Runs.stops_andThen {f : α → Program β} {ss more : List Step} {a : α} {d₁ : Disk}
    (hr : p.Runs d ss a d₁) (h : (f a).Stops d₁ more d') : (p >>= f).Stops d (ss ++ more) d' := by
  induction hr with
  | done => exact h
  | told _ _ ih | looked _ ih => exact ih h
  | stepped hs _ ih => exact stops_stepped_iff.2 (.inr ⟨_, _, hs, rfl, ih h⟩)

/-- A program can be cut at its end. -/
theorem Runs.stops {ss : List Step} {a : α} (hr : p.Runs d ss a d') : p.Stops d ss d' :=
  ⟨[], by rw [hr.steps_eq, List.append_nil], .inl hr.after_eq.symm⟩

/-- A program of two parts is cut in the first, or in the second after a run of the first. -/
theorem Stops.of_andThen {f : α → Program β} (h : (p >>= f).Stops d complete d') :
    p.Stops d complete d' ∨
      ∃ ss a d₁ more, p.Runs d ss a d₁ ∧ complete = ss ++ more ∧ (f a).Stops d₁ more d' := by
  induction p generalizing d complete with
  | done a => exact .inr ⟨[], a, d, complete, .done a d, rfl, h⟩
  | failed e => exact .inl h
  | told e p ih =>
      rcases ih (d := d) h with h | ⟨ss, a, d₁, more, hr, hc, hs⟩
      · exact .inl h
      · exact .inr ⟨ss, a, d₁, more, .told e hr, hc, hs⟩
  | looked next ih =>
      rcases ih d (d := d) h with h | ⟨ss, a, d₁, more, hr, hc, hs⟩
      · exact .inl h
      · exact .inr ⟨ss, a, d₁, more, .looked hr, hc, hs⟩
  | stepped s p ih =>
      rcases stops_stepped_iff.1 h with h | ⟨d₁, more, hs, rfl, hp⟩
      · exact .inl (stops_stepped_iff.2 (.inl h))
      · rcases ih hp with hp | ⟨ss, a, d₂, more', hr, rfl, hf⟩
        · exact .inl (stops_stepped_iff.2 (.inr ⟨d₁, more, hs, rfl, hp⟩))
        · exact .inr ⟨s :: ss, a, d₂, more', .stepped hs hr, rfl, hf⟩

/-- A program of two parts, the first of which comes to its end, is cut in the first or in the
second. -/
theorem Stops.of_runs_andThen {f : α → Program β} {ss : List Step} {a : α} {d₁ : Disk}
    (hr : p.Runs d ss a d₁) (h : (p >>= f).Stops d complete d') :
    p.Stops d complete d' ∨ ∃ more, complete = ss ++ more ∧ (f a).Stops d₁ more d' := by
  rcases h.of_andThen with hp | ⟨ss', a', d₂, more, hr', rfl, hf⟩
  · exact .inl hp
  · have hss : ss' = ss := by rw [← hr'.steps_eq, hr.steps_eq]
    have hd : d₂ = d₁ := by rw [← hr'.state_eq, hr.state_eq]
    have ha : a' = a := Except.ok.inj (hr'.result_eq.symm.trans hr.result_eq)
    subst hss hd ha
    exact .inr ⟨more, rfl, hf⟩

/-- What is done when a program is cut are steps of it. -/
theorem Stops.mem_steps (h : p.Stops d complete d') {s : Step} (hs : s ∈ complete) :
    s ∈ p.steps d := by
  obtain ⟨rest, hsteps, -⟩ := h
  rw [hsteps]
  exact List.mem_append_left _ hs

/-- A single step is not begun, or begun, or done. -/
theorem Stops.of_step {s : Step} (h : (step s).Stops d complete d') :
    (complete = [] ∧ (d' = d ∨ (∃ d₁, d.perform s = .ok d₁) ∧ d.Torn s d')) ∨
      (complete = [s] ∧ d.perform s = .ok d') := by
  rcases stops_stepped_iff.1 h with h | ⟨d₁, more, hs, rfl, hp⟩
  · exact .inl h
  · obtain ⟨rfl, rfl⟩ := hp.of_no_steps rfl
    exact .inr ⟨rfl, hs⟩

/-- A run of at most one step, which is done as a whole, is cut before it or not at all. -/
theorem Stops.of_runs {ss : List Step} {a : α} {d₁ : Disk} (hr : p.Runs d ss a d₁)
    (hlength : ss.length ≤ 1) (hwhole : ∀ s ∈ ss, s.Whole) (h : p.Stops d complete d') :
    (complete = [] ∧ d' = d) ∨ (complete = ss ∧ d' = d₁) := by
  obtain ⟨rest, hsteps, hd⟩ := h
  rw [hr.steps_eq] at hsteps
  have hafter := hr.after_eq
  subst hsteps
  cases complete with
  | nil =>
      rcases hd with rfl | ⟨s, hs, htorn⟩
      · exact .inl ⟨rfl, rfl⟩
      · exact absurd htorn (hwhole s (List.mem_of_mem_head? hs) _ _)
  | cons s more =>
      rw [List.length_append, List.length_cons] at hlength
      have hmore : more = [] := List.length_eq_zero_iff.1 (by omega)
      have hrest : rest = [] := List.length_eq_zero_iff.1 (by omega)
      subst hmore hrest
      rcases hd with rfl | ⟨s', hs, -⟩
      · exact .inr ⟨rfl, by rw [← hafter, List.append_nil]⟩
      · cases hs

end Stops

end Program

end RecordStore.Disk
