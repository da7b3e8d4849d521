import RecordStore.Proofs.Repository.Crash

/-!
# RecordStore.Proofs.Repository.Refusal

Names that a repository does not keep.  A record may have no place to stand (`recordPlace`): there is
a null in its name, or the name leads through a directory that is not there.  A batch is committed
before its records are moved to their names, so such a record does not stop it in time: the batch
waits, and every replay of it fails in the same way (`apply_stays_pending`).  And a manifest reads the two
halves of a surrogate pair back as one character, so a batch that names them is one that names the
character (`applyProgram_halved`).
-/

namespace RecordStore.Repository

open Disk (Program)
open Disk.Program (Stops)
open RecordName (Valid file)

/-! ## Names without a place -/

section Places

variable {name first second : Text} {rest : Path} {d : Disk}

/-- A name with a null in it has no place. -/
theorem recordPlace_of_null (h : Path.onDisk name = .error .null) (d : Disk) :
    recordPlace name d = .error (.change .nullInName) := by
  rw [recordPlace, h]
  rfl

/-- A name that leads through a directory has no place where that is missing. -/
theorem recordPlace_of_missing (hpath : Path.onDisk name = .ok (first :: second :: rest))
    (hrelative : Path.isAbsolute name = false) (hshort : Path.isLong first = false)
    (hparent : first ≠ Path.parentName) (hnone : d.node? [first] = none) :
    recordPlace name d = .error (.storage .missing) := by
  have hfirst : d.enterNew (.inside []) first = .ok (.inside [first]) := by
    simp [Disk.enterNew, Disk.enter, hparent, hshort, bind, Except.bind, pure, Except.pure]
  have hnext : ∀ next, d.enterNew (.inside [first]) next = .error .missing := by
    intro next
    simp [Disk.enterNew, Disk.enter, hnone, bind, Except.bind]
  have hland : d.landing (Disk.start [] name) (first :: second :: rest) = .error .missing := by
    rw [Disk.landing, Disk.start, hrelative]
    cases rest with
    | nil => simp [hfirst, hnext, bind, Except.bind, pure, Except.pure]
    | cons third rest => simp [hfirst, hnext, bind, Except.bind]
  rw [recordPlace, hpath]
  simp only [Except.mapError, bind, Except.bind, hland]

end Places

/-! ## Batches that wait for ever -/

/-- A committed batch whose first record has no place to stand. -/
structure Barred (batch : Text) (c : Change) (f : Failure) (d : Disk) : Prop where
  directory : d.node? (batchPath batch) = some .directory
  manifest : ∃ content shown cs, d.node? (manifestPath batch) = some (.file content)
    ∧ Manifest.read content = .ok (Manifest.json shown (c :: cs))
  staged : ∃ data, c.data? = some data ∧ d.node? (stagedPath batch 0) = some (.file data)
  noPlace : recordPlace (file c.kind c.ident) d = .error f

section Barred

variable {batch : Text} {c : Change} {cs : List Change} {f : Failure} {d d' : Disk}

/-- A replay of such a batch fails at its first record. -/
theorem Barred.replay_yields (h : Barred batch c f d) :
    (replay (batchPath batch)).run.Yields d (.error f) d := by
  obtain ⟨content, shown, cs, hnode, hread⟩ := h.manifest
  obtain ⟨data, hdata, hstaged⟩ := h.staged
  obtain ⟨next, hreplay, hnext⟩ := replay_eq_of_read hnode hread
  have hchange : (replayProgram batch 0 c).run.Yields d (.error f) d := by
    simp only [replayProgram_eq, Program.yields_looked_iff, Program.run_bind, placing, hdata,
      Option.isSome_some, if_true]
    exact (placeStaged_yields_error h.directory hstaged h.noPlace).bind_error
  rw [hreplay, Program.yields_looked_iff, hnext, finishBatch, Replaying.replayChanges_cons,
    Program.run_bind, Program.run_bind]
  exact hchange.bind_error.bind_error

theorem Barred.recoverBatch_yields (h : Barred batch c f d) :
    (recoverBatch batch).run.Yields d (.error f) d := by
  obtain ⟨content, shown, cs, hnode, -⟩ := h.manifest
  obtain ⟨next, heq, hnext⟩ := recoverBatch_eq batch
  obtain ⟨e, he⟩ := (hnext d).2.2 h.directory (Disk.holds_iff.2 ⟨_, hnode⟩)
  rw [heq, Program.yields_looked_iff, he, Program.yields_told_iff]
  exact h.replay_yields

/-- Opening a repository with such a batch alone fails, and changes nothing. -/
theorem Barred.recover_yields (h : Barred batch c f d) (w : d.WellFormed)
    (honly : ∀ name, d.node? (batchPath name) = some .directory → name = batch) :
    recover.Yields d (.error f) d := by
  have hall : ∀ names, batch ∈ names → (recoverBatches names).run.Yields d (.error f) d := by
    intro names hmem
    induction names with
    | nil => cases hmem
    | cons name names ih =>
        rw [recoverBatches_cons, Program.run_bind]
        by_cases hname : name = batch
        · subst hname
          exact h.recoverBatch_yields.bind_error
        · have hskip : d.node? (batchPath name) ≠ some .directory := fun hdir => hname (honly name hdir)
          exact (recoverBatch_runs_skip hskip).yields.bind
            (ih ((List.mem_cons.1 hmem).resolve_left (Ne.symm hname)))
  obtain ⟨next, heq, hnext⟩ := recoverProgram_eq
  have hpending : d.isDirectory pending = true := Disk.isDirectory_iff.2 (w.node?_dropLast h.directory)
  rw [recover, heq, Program.yields_looked_iff, hnext, if_pos hpending]
  exact hall _ (Disk.mem_names_iff.2 ⟨_, h.directory⟩)

/-- A batch that was committed waits if its first record has no place. -/
theorem Committed.barred {data : Bytes} (h : Committed batch (c :: cs) d d') (hb : Json.Unpaired batch)
    (hunpaired : ∀ c' ∈ c :: cs, c'.Unpaired) (hdata : c.data? = some data)
    (hplace : recordPlace (file c.kind c.ident) d' = .error f) : Barred batch c f d' where
  directory := h.directory
  manifest := by
    obtain ⟨content, hnode, hencode⟩ := h.manifest
    obtain ⟨content', hencode', hread⟩ := Manifest.read_encode hb hunpaired
    rw [hencode] at hencode'
    cases hencode'
    exact ⟨content, batch, cs, hnode, hread⟩
  staged := ⟨data, hdata, by rw [h.staged 0 c rfl, hdata]; rfl⟩
  noPlace := hplace

/-- **A record without a place.** A batch whose first record has no place to stand fails, but only after
it was committed: it stays in the directory of batches, and every later opening fails at it. -/
theorem apply_stays_pending {data : Bytes} (w : d.WellFormed) (hb : Json.Unpaired batch)
    (hunpaired : ∀ c' ∈ c :: cs, c'.Unpaired) (hfree : ¬ Taken batch d)
    (hnone : ∀ name, d.node? (batchPath name) ≠ some .directory) (hdata : c.data? = some data)
    (hplace : ∀ d', Committed batch (c :: cs) d d' → recordPlace (file c.kind c.ident) d' = .error f) :
    ∃ ss d', (applyProgram batch (c :: cs)).Stops d ss d' ∧ commitStep batch ∈ ss
      ∧ Committed batch (c :: cs) d d' ∧ (apply batch (c :: cs)).Yields d (.error f) d'
      ∧ recover.Yields d' (.error f) d' := by
  obtain ⟨content, hencode, -⟩ := Manifest.read_encode hb hunpaired
  obtain ⟨e, heq⟩ := applyProgram_eq hencode
  obtain ⟨ss, d', hruns, hmem, h⟩ := commitBatch_runs w hfree hencode
  have hbarred := h.barred hb hunpaired hdata (hplace d' h)
  have honly : ∀ name, d'.node? (batchPath name) = some .directory → name = batch := by
    intro name hdir
    by_contra hne
    rw [h.other _ (by simp [batchPath, pending])
      (by simp [Disk.encloses, batchPath, Text.dropPrefix?, Ne.symm hne])] at hdir
    exact hnone name hdir
  refine ⟨ss, d', ?_, hmem, h, ?_, hbarred.recover_yields h.wellFormed honly⟩
  · rw [heq, ← List.append_nil ss]
    exact hruns.stops_andThen (Stops.start _ d')
  · rw [apply, heq, Program.run_bind]
    refine hruns.yields.bind (Program.yields_told_iff.2 ?_)
    rw [Program.run_bind]
    exact hbarred.replay_yields.bind_error

end Barred

/-! ## A record below a directory -/

/-- A batch with one record, whose name leads through a directory. -/
def slashed : List Change := [.create "simple" "a/b" [1]]

theorem properChanges_slashed : ProperChanges slashed := ⟨by decide, by decide, by decide⟩

/-- Where there is no directory of that name, the record has no place. -/
theorem recordPlace_slashed {d : Disk} (h : d.node? ["simple-@a"] = none) :
    recordPlace (file "simple" "a/b") d = .error (.storage .missing) := by
  have hpath : Path.onDisk (file "simple" "a/b") = .ok ["simple-@a", "b.json"] := by decide +kernel
  exact recordPlace_of_missing hpath (by decide) (by decide +kernel) (by decide) h

theorem tidy_empty : Tidy {} := represents_empty.tidy

theorem noBatch_empty (batch : Text) : Disk.node? (batchPath batch) {} ≠ some .directory := by
  simp [Disk.node?, batchPath]

/-- The batch in an empty repository. -/
theorem apply_slashed : ∃ ss d', (applyProgram (Text.ofChars ['1']) slashed).Stops {} ss d'
    ∧ commitStep (Text.ofChars ['1']) ∈ ss ∧ Committed (Text.ofChars ['1']) slashed {} d'
    ∧ (apply (Text.ofChars ['1']) slashed).Yields {} (.error (.storage .missing)) d'
    ∧ recover.Yields d' (.error (.storage .missing)) d' := by
  have hfree : ¬ Taken (Text.ofChars ['1']) {} := by
    rintro (⟨bytes, hn⟩ | ⟨n, hn⟩) <;> cases hn
  refine apply_stays_pending Disk.wellFormed_empty (Json.unpaired_ofChars _) properChanges_slashed.unpaired
    hfree noBatch_empty rfl fun d' h => recordPlace_slashed ?_
  rw [h.other _ (by decide) (by simp [Disk.encloses, batchPath, Text.dropPrefix?])]
  rfl

/-! ## A character in two halves -/

/-- The two halves of a surrogate pair. -/
def halves : Text := [.ofCode 0xD83D, .ofCode 0xDE00]

/-- A batch that deletes a record which no file can be the file of. -/
def halved : List Change := [.delete "simple" halves]

/-- In a manifest the halves are the character that they stand for. -/
theorem applyProgram_halved : applyProgram (Text.ofChars ['1']) halved
    = applyProgram (Text.ofChars ['1']) [.delete "simple" "😀"] := rfl

/-- A repository that holds the record of this character. -/
def pairedDisk : Disk := Disk.put [file "simple" "😀"] (.file [1]) {}

theorem represents_pairedDisk :
    Represents pairedDisk (Function.update (fun _ => none) "😀" (some ("simple", [1]))) :=
  represents_empty.put_file (by decide) (by simp) [1]

theorem wellFormed_pairedDisk : pairedDisk.WellFormed := ⟨by decide, by decide, by decide⟩

theorem noBatch_pairedDisk (batch : Text) : pairedDisk.node? (batchPath batch) ≠ some .directory := by
  simp [pairedDisk, Disk.put, Disk.node?, batchPath, List.lookup_cons]

/-- The batch is put in place, and takes the record of the character away. -/
theorem apply_halved : ∃ ss d', (applyProgram (Text.ofChars ['1']) halved).Runs pairedDisk ss
    (Text.ofChars ['1']) d' ∧ Settled onlyFiles (fun _ => none) d' := by
  have s := settled_of_tidy wellFormed_pairedDisk represents_pairedDisk.tidy noBatch_pairedDisk
  have hstorable : StorableChanges [.delete "simple" "😀"] :=
    ⟨⟨by decide, by decide, by decide⟩, by decide⟩
  have hfree : ¬ Taken (Text.ofChars ['1']) pairedDisk := by
    rintro (⟨bytes, hn⟩ | ⟨n, hn⟩) <;> cases hn
  obtain ⟨ss, d', hruns, s', -⟩ := applyProgram_runs s (Json.unpaired_ofChars _) hstorable hfree
  rw [represents_pairedDisk.record?_eq] at s'
  have hnone : appliedAll (Function.update (fun _ => none) "😀" (some (("simple" : Text), [1])))
      [.delete "simple" "😀"] = fun _ => none :=
    (Function.update_idem _ _ _).trans (Function.update_eq_self ("😀" : Text) fun _ => none)
  exact ⟨ss, d', applyProgram_halved ▸ hruns, hnone ▸ s'⟩

/-- A record below a directory that is not there: its batch is committed in an empty repository and cannot
be finished; opening fails, the batch is still there, and the record is not stored.  And an identifier in
two halves: when it is deleted, it is the record of the character that is gone. -/
theorem apply_crash_atomic_misnamed :
    (Disk.WellFormed {} ∧ Tidy {} ∧ (∀ batch, Disk.node? (batchPath batch) {} ≠ some .directory)
      ∧ ProperChanges slashed ∧ KeepsKinds (record? {}) slashed
      ∧ ∃ complete cut, (applyProgram (Text.ofChars ['1']) slashed).Stops {} complete cut
        ∧ commitStep (Text.ofChars ['1']) ∈ complete
        ∧ let opened := Procedure.run recover cut
          opened.result = .error (.storage .missing)
            ∧ opened.state.node? (batchPath (Text.ofChars ['1'])) = some .directory
            ∧ record? opened.state ≠ appliedAll (record? {}) slashed)
    ∧ pairedDisk.WellFormed ∧ Tidy pairedDisk
      ∧ (∀ batch, pairedDisk.node? (batchPath batch) ≠ some .directory)
      ∧ (∀ c ∈ halved, Valid c.kind c.ident ∧ c.Fits) ∧ KeepsKinds (record? pairedDisk) halved
      ∧ ∃ complete cut, (applyProgram (Text.ofChars ['1']) halved).Stops pairedDisk complete cut
        ∧ let opened := Procedure.run recover cut
          record? opened.state ≠ record? pairedDisk
            ∧ record? opened.state ≠ appliedAll (record? pairedDisk) halved := by
  constructor
  · obtain ⟨ss, d', hstops, hmem, h, -, hresult, hstate⟩ := apply_slashed
    have hempty : record? {} = fun _ => none := represents_empty.record?_eq
    have hkinds : KeepsKinds (record? {}) slashed := by
      rw [hempty]
      exact fun _ _ _ _ hv => nomatch hv
    refine ⟨Disk.wellFormed_empty, tidy_empty, noBatch_empty, properChanges_slashed, hkinds, ss, d',
      hstops, hmem, hresult, ?_, ?_⟩
    · rw [hstate]
      exact h.directory
    · have s := settled_of_tidy Disk.wellFormed_empty tidy_empty noBatch_empty
      have hrecords : record? d' = record? {} := (s.represents_of_elsewhere h.other).record?_eq
      rw [hstate, hrecords, hempty]
      exact fun heq => nomatch congrFun heq "a/b"
  · obtain ⟨ss, d', hruns, s'⟩ := apply_halved
    have hno : ∀ name, d'.node? (batchPath name) ≠ some .directory :=
      fun name hdir => not_onlyFiles name (s'.others name _ hdir)
    have hopened : (Procedure.run recover d').state = d' := (recoverProgram_runs_skip hno).state_eq
    have hkinds : KeepsKinds (record? pairedDisk) halved := by
      intro c hc hdata
      rw [List.mem_singleton.1 hc] at hdata
      exact absurd rfl hdata
    refine ⟨wellFormed_pairedDisk, represents_pairedDisk.tidy, noBatch_pairedDisk, by decide, hkinds,
      ss, d', hruns.stops, ?_⟩
    dsimp only
    rw [hopened, s'.represents.record?_eq, represents_pairedDisk.record?_eq]
    constructor <;> exact fun heq => nomatch congrFun heq "😀"

end RecordStore.Repository
