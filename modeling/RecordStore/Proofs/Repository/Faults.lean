import RecordStore.Proofs.Merge.Failures
import RecordStore.Proofs.Repository.Staging

/-!
# RecordStore.Proofs.Repository.Faults

How applying a batch fails.  A batch whose names can be written and read back is stopped by the storage
or by a null in a name, and by nothing else (`apply_fails_in_files`): its manifest is read as it was
written, and every other part of the program only looks at the disk, moves records to their names and
does steps.
-/

namespace RecordStore

open Procedure (FailsBy)

/-- A failure of the storage. -/
def Failure.OfStorage (e : Failure) : Prop := ∃ fault, e = .storage fault

/-- A failure of handling files: one of the storage, or a name with a null in it. -/
def Failure.OfFiles (e : Failure) : Prop := e.OfStorage ∨ e = .change .nullInName

namespace Disk.Program

/-! ## Parts of programs -/

section Parts

variable {α β : Type} {P : Failure → Prop}

theorem failsBy_done (a : α) : (done a).run.FailsBy P := Procedure.failsBy_pure a

theorem failsBy_storage (fault : StorageFault) :
    (failed (.storage fault) : Program α).run.FailsBy Failure.OfFiles :=
  Procedure.failsBy_fail (.inl ⟨fault, rfl⟩)

theorem failsBy_looked {next : Disk → Program α} (h : ∀ d, (next d).run.FailsBy P) :
    (looked next).run.FailsBy P :=
  fun d e d' hr => h d d e d' (yields_looked_iff.1 hr)

/-- A step fails by the fault that the storage tells. -/
theorem failsBy_stepped {p : Program α} (s : Disk.Step) (h : p.run.FailsBy Failure.OfFiles) :
    (stepped s p).run.FailsBy Failure.OfFiles := by
  refine FailsBy.bind (fun d e d' hr => ?_) fun _ => h
  cases hd : d.perform s with
  | ok d₁ => simp [Procedure.Yields, Procedure.run, Disk.step, hd] at hr
  | error fault =>
      have hfail : (Disk.step s).Yields d (.error (.storage fault)) d := by
        simp [Procedure.Yields, Procedure.run, Disk.step, hd, Procedure.fail]
      exact .inl ⟨fault, Except.error.inj (hr.unique hfail).1⟩

theorem failsBy_step (s : Disk.Step) : (step s).run.FailsBy Failure.OfFiles :=
  failsBy_stepped s (failsBy_done ())

theorem failsBy_bind {p : Program α} {f : α → Program β} (h : p.run.FailsBy P)
    (hf : ∀ a, (f a).run.FailsBy P) : (p >>= f).run.FailsBy P := by
  rw [run_bind]
  exact h.bind hf

end Parts

end Disk.Program

namespace Repository

open Disk (Program)
open Disk.Program

variable {batch : Text} {changes : List Change} {content : Bytes} {d d' : Disk} {e : Failure}

/-! ## Up to the commitment -/

theorem makeBatch_failsBy (batch : Text) :
    (makeBatch (batchPath batch)).run.FailsBy Failure.OfFiles := by
  rw [makeBatch_eq]
  refine failsBy_looked fun d => ?_
  split
  · exact failsBy_step _
  · exact failsBy_stepped _ (failsBy_step _)

theorem stage_failsBy (batch : Text) (n : Nat) (cs : List Change) :
    (stage (batchPath batch) n cs).run.FailsBy Failure.OfFiles := by
  induction cs generalizing n with
  | nil => exact failsBy_done ()
  | cons c cs ih =>
      rw [stage_cons]
      refine failsBy_bind ?_ fun _ => ih (n + 1)
      rw [stageOne]
      split
      · exact failsBy_step _
      · exact failsBy_done ()

theorem commitBatch_failsBy (batch : Text) (changes : List Change) (content : Bytes) :
    (commitBatch batch changes content).run.FailsBy Failure.OfFiles :=
  failsBy_bind (makeBatch_failsBy batch) fun _ => failsBy_bind (stage_failsBy batch 0 changes) fun _ =>
    failsBy_bind (failsBy_step _) fun _ => failsBy_step _

/-! ## The replay -/

theorem dropFile_failsBy (f? : Option RecordFile) : (dropFile f?).run.FailsBy Failure.OfFiles := by
  cases f? with
  | none => exact failsBy_done ()
  | some f =>
      refine failsBy_looked fun d => ?_
      simp only [Program.andThen]
      split
      · exact failsBy_step _
      · exact failsBy_done ()

/-- A name without lone surrogates is refused by the storage, or for a null in it. -/
theorem ofFiles_of_recordPlace {name : Text} (hplain : name.Plain)
    (h : recordPlace name d = .error e) : e.OfFiles := by
  obtain ⟨cs, rfl⟩ := hplain
  rw [recordPlace, Path.onDisk_ofChars] at h
  split_ifs at h with hnull
  · cases h
    exact .inr rfl
  · cases hland : d.landing (Disk.start [] (Text.ofChars cs)) (Path.ofText (Text.ofChars cs)) with
    | ok place =>
        simp only [Except.mapError, bind, Except.bind, hland] at h
        cases h
    | error fault =>
        simp only [Except.mapError, bind, Except.bind, hland] at h
        cases h
        exact .inl ⟨fault, rfl⟩

theorem moveTo_failsBy (file : Text) (source target : Disk.Place) :
    (placeStaged.moveTo file source target).run.FailsBy Failure.OfFiles := by
  unfold placeStaged.moveTo
  split
  · exact failsBy_storage .busy
  · split
    · exact failsBy_storage .busy
    · split
      · exact failsBy_step _
      · exact failsBy_step _

theorem placeStaged_failsBy (batch : Path) (file : Text) {name : Text} (hplain : name.Plain) :
    (placeStaged batch file name).run.FailsBy Failure.OfFiles := by
  rw [placeStaged_eq]
  refine failsBy_looked fun d => ?_
  split
  · exact failsBy_done ()
  · refine failsBy_looked fun d => failsBy_bind ?_ fun target => moveTo_failsBy _ _ target
    cases hplace : recordPlace name d with
    | ok target => exact failsBy_done target
    | error f => exact Procedure.failsBy_fail (ofFiles_of_recordPlace hplain hplace)

theorem replayProgram_failsBy (batch : Text) (n : Nat) {c : Change} (hplain : c.Plain) :
    (replayProgram batch n c).run.FailsBy Failure.OfFiles := by
  rw [replayProgram_eq]
  refine failsBy_looked fun d => failsBy_bind ?_ fun _ => dropFile_failsBy _
  rw [placing]
  split
  · next hstored =>
    obtain ⟨hkind, hident⟩ := hplain (by simpa [Option.isSome_iff_ne_none] using hstored)
    exact placeStaged_failsBy _ _ (RecordName.plain_file hkind hident)
  · exact failsBy_done ()

theorem finishBatch_failsBy (batch : Text) {changes : List Change} (hplain : ∀ c ∈ changes, c.Plain) :
    (finishBatch batch changes).run.FailsBy Failure.OfFiles := by
  have hchanges : ∀ n cs, (∀ c ∈ cs, c.Plain) → (replayChanges (batchPath batch)
      (Manifest.changesJson n cs)).run.FailsBy Failure.OfFiles := by
    intro n cs hcs
    induction cs generalizing n with
    | nil => exact failsBy_done ()
    | cons c cs ih =>
        rw [Replaying.replayChanges_cons]
        exact failsBy_bind (replayProgram_failsBy batch n (hcs c List.mem_cons_self))
          fun _ => ih (n + 1) fun c' hc' => hcs c' (List.mem_cons_of_mem c hc')
  exact failsBy_bind (hchanges 0 changes hplain) fun _ => failsBy_step _

/-- **A batch fails in its files.** What stops a batch whose names can be written is the storage, or a null
in the name of a record. -/
theorem apply_fails_in_files (w : d.WellFormed) (hb : Json.Unpaired batch)
    (hunpaired : ∀ c ∈ changes, c.Unpaired) (hplain : ∀ c ∈ changes, c.Plain)
    (h : (apply batch changes).Yields d (.error e) d') : e.OfFiles := by
  obtain ⟨content, hencode, -⟩ := Manifest.read_encode hb hunpaired
  obtain ⟨event, heq⟩ := applyProgram_eq hencode
  rw [apply, heq, Program.run_bind] at h
  rcases Procedure.yields_bind_iff.1 h with ⟨e', he, hcommit⟩ | ⟨_, d₁, hcommit, hrest⟩
  · cases he
    exact commitBatch_failsBy batch changes content _ _ _ hcommit
  have hfree : ¬ Taken batch d := by
    intro htaken
    obtain ⟨f, hf⟩ : ∃ f, (commitBatch batch changes content).run.Yields d (.error f) d :=
      (commitBatch_refused w htaken).2
    cases (hcommit.unique hf).1
  obtain ⟨ss, d₂, hruns, -, hd₂⟩ := commitBatch_runs w hfree hencode
  obtain rfl : d₁ = d₂ := (hcommit.unique hruns.yields).2
  -- The manifest is there and says what was written, so that the replay reads nothing else.
  obtain ⟨content', hnode, hencode'⟩ := hd₂.manifest
  obtain ⟨next, hreplay, hnext⟩ := replay_eq hnode hencode' hb hunpaired
  rw [Program.yields_told_iff, Program.run_bind] at hrest
  rcases Procedure.yields_bind_iff.1 hrest with ⟨e', he, hfail⟩ | ⟨_, d₃, -, hpure⟩
  · cases he
    rw [hreplay, Program.yields_looked_iff, hnext] at hfail
    exact finishBatch_failsBy batch hplain _ _ _ hfail
  · cases (Procedure.yields_pure_iff.1 hpure).1

end Repository

end RecordStore
