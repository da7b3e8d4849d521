import RecordStore.Proofs.Repository.Staging

/-!
# RecordStore.Proofs.Repository.Crash

A batch is written as a unit, wherever it is cut.  Up to the moment at which the manifest gets its
name the records are those before the batch and the batch directory is dropped on opening
(`Uncommitted`).  From then on the batch is replayed, as often as needed (`Replaying`), until its
directory is taken away; when the manifest is gone the records are those after the batch, and what
is left of the directory is dropped.
-/

namespace RecordStore.Repository

open Disk (Program Step Clearing)
open Disk.Program (Stops)
open RecordName (Valid file)

/-- A repository with the records of a map.  In the directory of batches there may stand what a
condition allows. -/
structure Settled (waiting : Text → Node → Prop) (m : Contents) (d : Disk) : Prop where
  wellFormed : d.WellFormed
  represents : Represents d m
  others : ∀ name n, d.node? (batchPath name) = some n → waiting name n

/-- A repository with the records of a map, and a batch without a manifest besides what may wait. -/
structure Uncommitted (waiting : Text → Node → Prop) (batch : Text) (m : Contents) (d : Disk) :
    Prop where
  wellFormed : d.WellFormed
  represents : Represents d m
  noManifest : d.node? (manifestPath batch) = none
  others : ∀ name n, d.node? (batchPath name) = some n → name = batch ∨ waiting name n

variable {waiting : Text → Node → Prop} {batch : Text} {changes : List Change} {m : Contents}
  {d d' : Disk} {complete : List Step}

/-! ## Before the commitment and after it -/

theorem record_ne_batch_file {name batch : Text} {rest : Path} :
    [name] ≠ batchPath batch ++ rest := by simp [batchPath]

section Elsewhere

variable (s : Settled waiting m d)
  (h : ∀ p, p ≠ pending → Disk.encloses (batchPath batch) p = false → d'.node? p = d.node? p)
include s h

/-- What is done in the directory of a batch does not change the records. -/
theorem Settled.represents_of_elsewhere : Represents d' m :=
  s.represents.congr fun hv => h _ (by simpa [pending] using file_ne_pendingName hv)
    (by simp [Disk.encloses, batchPath, Text.dropPrefix?])

/-- What is done in the directory of a batch does not change what stands beside it. -/
theorem Settled.others_of_elsewhere (name : Text) (n : Node) (hn : d'.node? (batchPath name) = some n) :
    name = batch ∨ waiting name n := by
  by_cases hname : name = batch
  · exact .inl hname
  · refine .inr (s.others name n ?_)
    rw [← h (batchPath name) (by simp [batchPath, pending]), hn]
    simp [Disk.encloses, batchPath, Text.dropPrefix?, Ne.symm hname]

end Elsewhere

/-- A batch that was begun in a settled repository is not committed. -/
theorem Settled.uncommitted (s : Settled waiting m d) (b : Begun batch d d') :
    Uncommitted waiting batch m d' :=
  ⟨b.wellFormed, s.represents_of_elsewhere b.other, b.noManifest, s.others_of_elsewhere b.other⟩

/-- A batch that was committed in a settled repository is replayed from its first change on. -/
theorem Settled.replaying (s : Settled waiting m d) (h : Committed batch changes d d') :
    Replaying waiting batch changes m 0 d' where
  wellFormed := h.wellFormed
  represents := s.represents_of_elsewhere h.other
  manifest := h.manifest
  staged := by
    intro n c hc
    rw [if_neg (Nat.not_lt_zero n)]
    exact h.staged n c hc
  others := s.others_of_elsewhere h.other

/-! ## Clearing away -/

theorem Replaying.replay_eq {j : Nat} (r : Replaying waiting batch changes m j d)
    (hb : Json.Unpaired batch) (hp : StorableChanges changes) :
    ∃ next, replay (batchPath batch) = .looked next ∧ next d = finishBatch batch changes := by
  obtain ⟨content, hnode, hencode⟩ := r.manifest
  exact Repository.replay_eq hnode hencode hb hp.unpaired

/-- What is left of a batch directory that is being cleared, when all changes are done. -/
theorem Replaying.erase (r : Replaying waiting batch changes m changes.length d) {rest : Path}
    (hleaf : ∀ more, more ≠ [] → d.node? (batchPath batch ++ rest ++ more) = none) :
    Replaying waiting batch changes m changes.length (d.erase (batchPath batch ++ rest))
      ∨ Uncommitted waiting batch (appliedAll m changes) (d.erase (batchPath batch ++ rest)) := by
  have herase := Disk.node?_erase (p := batchPath batch ++ rest) (by simp [batchPath]) d
  have hw := r.wellFormed.erase hleaf
  have hrep : Represents (d.erase (batchPath batch ++ rest)) (appliedAll m changes) := by
    have hr := r.represents
    rw [List.take_length] at hr
    exact hr.congr fun _ => by rw [herase, if_neg record_ne_batch_file]
  have hothers : ∀ name n, (d.erase (batchPath batch ++ rest)).node? (batchPath name) = some n →
      name = batch ∨ waiting name n := by
    intro name n h
    rw [herase] at h
    split at h
    · cases h
    · exact r.others name n h
  by_cases hq : manifestPath batch = batchPath batch ++ rest
  · exact .inr ⟨hw, hrep, by rw [herase, if_pos hq], hothers⟩
  · refine .inl ⟨hw, by rwa [List.take_length], ?_, ?_, hothers⟩
    · rw [herase, if_neg hq]
      exact r.manifest
    · intro n c hc
      have hlen : n < changes.length := (List.getElem?_eq_some_iff.1 hc).1
      rw [herase, if_pos hlen]
      split
      · rfl
      · rw [r.staged n c hc, if_pos hlen]

theorem Uncommitted.erase (u : Uncommitted waiting batch m d) {rest : Path}
    (hleaf : ∀ more, more ≠ [] → d.node? (batchPath batch ++ rest ++ more) = none) :
    Uncommitted waiting batch m (d.erase (batchPath batch ++ rest)) := by
  have herase := Disk.node?_erase (p := batchPath batch ++ rest) (by simp [batchPath]) d
  refine ⟨u.wellFormed.erase hleaf, ?_, ?_, ?_⟩
  · exact u.represents.congr fun _ => by rw [herase, if_neg record_ne_batch_file]
  · rw [herase, u.noManifest, ite_self]
  · intro name n h
    rw [herase] at h
    split at h
    · cases h
    · exact u.others name n h

/-- A batch directory may go in any order once all changes are done. -/
theorem Replaying.clearing (r : Replaying waiting batch changes m changes.length d)
    (h : Clearing (batchPath batch) d d') :
    Replaying waiting batch changes m changes.length d'
      ∨ Uncommitted waiting batch (appliedAll m changes) d' := by
  induction h with
  | start => exact .inl r
  | entry q _ inside leaf ih =>
      obtain ⟨rest, rfl⟩ := Disk.encloses_iff.1 inside
      rcases ih with r | u
      · exact r.erase leaf
      · exact .inr (u.erase leaf)

/-- A batch directory that is gone leaves the records as they are. -/
theorem settled_eraseTree {m : Contents} (w : d.WellFormed) (r : Represents d m)
    (hothers : ∀ name n, d.node? (batchPath name) = some n → name = batch ∨ waiting name n) :
    Settled waiting m (d.eraseTree (batchPath batch)) := by
  have herase := Disk.node?_eraseTree (p := batchPath batch) (by simp [batchPath]) d
  refine ⟨w.eraseTree _, ?_, ?_⟩
  · refine r.congr fun _ => ?_
    rw [herase, if_neg]
    simp [Disk.encloses, batchPath, Text.dropPrefix?]
  · intro name n h
    rw [herase] at h
    split at h
    · cases h
    · next hout =>
      rcases hothers name n h with rfl | hwait
      · exact absurd (Disk.encloses_self _) hout
      · exact hwait

theorem Uncommitted.settled_eraseTree (u : Uncommitted waiting batch m d) :
    Settled waiting m (d.eraseTree (batchPath batch)) :=
  Repository.settled_eraseTree u.wellFormed u.represents u.others

/-- A replay comes to its end, whatever was done before. -/
theorem Replaying.replay_runs {j : Nat} (r : Replaying waiting batch changes m j d)
    (hb : Json.Unpaired batch) (hp : StorableChanges changes) (hj : j ≤ changes.length) :
    ∃ ss d', (replay (batchPath batch)).Runs d ss () d'
      ∧ Settled waiting (appliedAll m changes) d' ∧ d'.node? pending = some .directory := by
  obtain ⟨next, hreplay, hnext⟩ := r.replay_eq hb hp
  obtain ⟨ss, d', hruns, r'⟩ := r.replayChanges hp (List.drop_zero) (Nat.zero_le j) hj
  have hpending : d'.node? pending = some .directory := r'.wellFormed.node?_dropLast r'.directory
  refine ⟨ss ++ [.removeTree (batchPath batch)], d'.eraseTree (batchPath batch), ?_, ?_, ?_⟩
  · rw [hreplay]
    refine .looked ?_
    rw [hnext]
    exact hruns.andThen (.step (Disk.perform_removeTree d' _))
  · refine Repository.settled_eraseTree r'.wellFormed ?_ r'.others
    have hrep := r'.represents
    rwa [List.take_length] at hrep
  · rw [Disk.node?_eraseTree (by simp [batchPath]), if_neg, hpending]
    simp [Disk.encloses, batchPath, pending, Text.dropPrefix?]

/-- A first replay is cut where it was interrupted, or where all is done. -/
theorem Replaying.replay_stops (r : Replaying waiting batch changes m 0 d)
    (hb : Json.Unpaired batch) (hp : StorableChanges changes)
    (h : (replay (batchPath batch)).Stops d complete d') :
    Interrupted waiting batch changes m d'
      ∨ Uncommitted waiting batch (appliedAll m changes) d' := by
  obtain ⟨next, hreplay, hnext⟩ := r.replay_eq hb hp
  obtain ⟨ss, d₁, hruns, r₁⟩ := r.replayChanges hp (List.drop_zero) (Nat.le_refl 0) (Nat.zero_le _)
  rw [hreplay, Program.stops_looked_iff, hnext] at h
  rcases Stops.of_runs_andThen hruns h with h | ⟨more, -, h⟩
  · exact .inl (r.replayChanges_stops hp List.drop_zero (Nat.zero_le _) h)
  · have hlast : Interrupted waiting batch changes m d₁ :=
      .inl ⟨changes.length, Nat.le_refl _, r₁⟩
    rcases h.of_step with ⟨-, rfl | ⟨-, htorn⟩⟩ | ⟨-, hd⟩
    · exact .inl hlast
    · cases htorn with
      | removeTree _ hclear =>
          rcases r₁.clearing hclear with r' | u
          · exact .inl (.inl ⟨changes.length, Nat.le_refl _, r'⟩)
          · exact .inr u
    · rw [Disk.perform_removeTree] at hd
      cases hd
      have hrep := r₁.represents
      rw [List.take_length] at hrep
      have hgone : (d₁.eraseTree (batchPath batch)).node? (batchPath batch) ≠ some .directory := by
        rw [Disk.node?_eraseTree (by simp [batchPath]), if_pos (Disk.encloses_self _)]
        simp
      have hsettled := Repository.settled_eraseTree r₁.wellFormed hrep r₁.others
      exact .inr (hsettled.uncommitted (begun_start hsettled.wellFormed hgone))

/-! ## Recovery -/

/-- No batch waits: in the directory of batches there are files at most. -/
def onlyFiles : Text → Node → Prop := fun _ n => n ≠ .directory

theorem not_onlyFiles (name : Text) : ¬ onlyFiles name .directory := fun h => h rfl

theorem recoverBatches_cons (name : Text) (names : List Text) :
    recoverBatches (name :: names) = recoverBatch name >>= fun _ => recoverBatches names := rfl

theorem recoverBatch_eq (batch : Text) : ∃ next, recoverBatch batch = .looked next ∧
    ∀ d, (d.node? (batchPath batch) ≠ some .directory → next d = pure ()) ∧
      (d.node? (batchPath batch) = some .directory → d.node? (manifestPath batch) = none →
        ∃ e, next d = .told e (Program.step (.removeTree (batchPath batch)))) ∧
      (d.node? (batchPath batch) = some .directory → d.holds (manifestPath batch) = true →
        ∃ e, next d = .told e (replay (batchPath batch))) := by
  refine ⟨_, rfl, fun d => ⟨?_, ?_, ?_⟩⟩
  · intro h
    have hdir : d.isDirectory (batchPath batch) = false := by
      rw [Bool.eq_false_iff, ne_eq, Disk.isDirectory_iff]
      exact h
    simp only [Program.andThen, hdir, Bool.false_eq_true, if_false]
  · intro h hm
    have hholds : d.holds (batchPath batch ++ [Manifest.fileName]) = false := by
      rw [← manifestPath, Disk.holds, hm]; rfl
    simp only [Program.andThen, Disk.isDirectory_iff.2 h, hholds, Bool.false_eq_true, if_true,
      if_false]
    exact ⟨_, rfl⟩
  · intro h hm
    rw [manifestPath] at hm
    simp only [Program.andThen, Disk.isDirectory_iff.2 h, hm, if_true]
    exact ⟨_, rfl⟩

/-- A batch with a manifest is replayed. -/
theorem recoverBatch_runs_replay (hdir : d.node? (batchPath batch) = some .directory)
    {content : Bytes} (hnode : d.node? (manifestPath batch) = some (.file content)) {ss : List Step}
    (h : (replay (batchPath batch)).Runs d ss () d') : (recoverBatch batch).Runs d ss () d' := by
  obtain ⟨next, heq, hnext⟩ := recoverBatch_eq batch
  obtain ⟨e, he⟩ := (hnext d).2.2 hdir (Disk.holds_iff.2 ⟨_, hnode⟩)
  rw [heq]
  refine .looked ?_
  rw [he]
  exact .told e h

theorem recoverBatch_runs_skip (h : d.node? (batchPath batch) ≠ some .directory) :
    (recoverBatch batch).Runs d [] () d := by
  obtain ⟨next, heq, hnext⟩ := recoverBatch_eq batch
  rw [heq]
  refine .looked ?_
  rw [(hnext d).1 h]
  exact .done () d

/-- Where there is no batch directory, none is recovered. -/
theorem recoverBatches_runs_skip {names : List Text}
    (h : ∀ name ∈ names, d.node? (batchPath name) ≠ some .directory) :
    (recoverBatches names).Runs d [] () d := by
  induction names with
  | nil => exact .done () d
  | cons name names ih =>
      rw [recoverBatches_cons]
      exact (recoverBatch_runs_skip (h name List.mem_cons_self)).andThen
        (ih fun n hn => h n (List.mem_cons_of_mem _ hn))

/-- The one batch directory is recovered, and what else is there is left alone. -/
theorem recoverBatches_runs {P : Disk → Prop} {names : List Text} (hmem : batch ∈ names)
    (honly : ∀ name, d.node? (batchPath name) = some .directory → name = batch)
    (hgone : ∀ d', P d' → ∀ name, d'.node? (batchPath name) ≠ some .directory)
    (hbatch : ∃ ss d', (recoverBatch batch).Runs d ss () d' ∧ P d') :
    ∃ ss d', (recoverBatches names).Runs d ss () d' ∧ P d' := by
  induction names with
  | nil => cases hmem
  | cons name names ih =>
      by_cases hname : name = batch
      · subst hname
        obtain ⟨ss, d', hruns, s⟩ := hbatch
        exact ⟨ss ++ [], d', hruns.andThen (recoverBatches_runs_skip fun n _ => hgone d' s n), s⟩
      · have hskip : d.node? (batchPath name) ≠ some .directory := fun h => hname (honly name h)
        have hmem' : batch ∈ names := (List.mem_cons.1 hmem).resolve_left (Ne.symm hname)
        obtain ⟨ss, d', hruns, s⟩ := ih hmem'
        exact ⟨[] ++ ss, d', (recoverBatch_runs_skip hskip).andThen hruns, s⟩

theorem recoverProgram_eq : ∃ next, recoverProgram = .looked next
    ∧ ∀ d, next d = if d.isDirectory pending then recoverBatches (d.names pending) else pure () :=
  ⟨_, rfl, fun _ => rfl⟩

/-- Without a directory of a batch there is nothing to recover. -/
theorem recoverProgram_runs_skip (hno : ∀ name, d.node? (batchPath name) ≠ some .directory) :
    recoverProgram.Runs d [] () d := by
  obtain ⟨next, heq, hnext⟩ := recoverProgram_eq
  rw [heq]
  refine .looked ?_
  rw [hnext]
  split
  · exact recoverBatches_runs_skip fun name _ => hno name
  · exact .done () d

/-- Opening a repository with one batch directory recovers that one. -/
theorem recoverProgram_runs_batch {P : Disk → Prop} (w : d.WellFormed)
    (hdir : d.node? (batchPath batch) = some .directory)
    (honly : ∀ name, d.node? (batchPath name) = some .directory → name = batch)
    (hgone : ∀ d', P d' → ∀ name, d'.node? (batchPath name) ≠ some .directory)
    (hbatch : ∃ ss d', (recoverBatch batch).Runs d ss () d' ∧ P d') :
    ∃ ss d', recoverProgram.Runs d ss () d' ∧ P d' := by
  obtain ⟨next, heq, hnext⟩ := recoverProgram_eq
  rw [heq]
  have hpending : d.node? pending = some .directory := w.node?_dropLast hdir
  have hmem : batch ∈ d.names pending := Disk.mem_names_iff.2 ⟨_, hdir⟩
  obtain ⟨ss, d', hruns, s⟩ := recoverBatches_runs hmem honly hgone hbatch
  refine ⟨ss, d', .looked ?_, s⟩
  rw [hnext, if_pos (Disk.isDirectory_iff.2 hpending)]
  exact hruns

/-- Opening a repository with at most one batch directory recovers that one. -/
theorem recoverProgram_runs (w : d.WellFormed)
    (honly : ∀ name, d.node? (batchPath name) = some .directory → name = batch)
    (hnone : d.node? (batchPath batch) ≠ some .directory → Represents d m)
    (hbatch : d.node? (batchPath batch) = some .directory →
      ∃ ss d', (recoverBatch batch).Runs d ss () d' ∧ Settled onlyFiles m d') :
    ∃ ss d', recoverProgram.Runs d ss () d' ∧ Settled onlyFiles m d' := by
  by_cases hdir : d.node? (batchPath batch) = some .directory
  · exact recoverProgram_runs_batch w hdir honly
      (fun _ s n hdir' => not_onlyFiles n (s.others n _ hdir')) (hbatch hdir)
  · have hno : ∀ name, d.node? (batchPath name) ≠ some .directory := by
      intro name h
      exact hdir (honly name h ▸ h)
    exact ⟨[], d, recoverProgram_runs_skip hno, w, hnone hdir, fun name n h hn => hno name (hn ▸ h)⟩

theorem Uncommitted.only (u : Uncommitted onlyFiles batch m d) (name : Text)
    (h : d.node? (batchPath name) = some .directory) : name = batch :=
  (u.others name _ h).resolve_right (not_onlyFiles name)

/-- A batch that was not committed is dropped on opening. -/
theorem Uncommitted.recover_runs (u : Uncommitted onlyFiles batch m d) :
    ∃ ss d', recoverProgram.Runs d ss () d' ∧ Settled onlyFiles m d' := by
  refine recoverProgram_runs u.wellFormed u.only (fun _ => u.represents) fun hdir => ?_
  obtain ⟨next, heq, hnext⟩ := recoverBatch_eq batch
  obtain ⟨e, he⟩ := (hnext d).2.1 hdir u.noManifest
  refine ⟨[.removeTree (batchPath batch)], _, ?_, u.settled_eraseTree⟩
  rw [heq]
  refine .looked ?_
  rw [he]
  exact .told e (.step (Disk.perform_removeTree d _))

theorem Replaying.only {j : Nat} (r : Replaying onlyFiles batch changes m j d) (name : Text)
    (h : d.node? (batchPath name) = some .directory) : name = batch :=
  (r.others name _ h).resolve_right (not_onlyFiles name)

/-- A batch that was committed is finished on opening. -/
theorem Replaying.recover_runs {j : Nat} (r : Replaying onlyFiles batch changes m j d)
    (hb : Json.Unpaired batch) (hp : StorableChanges changes) (hj : j ≤ changes.length) :
    ∃ ss d', recoverProgram.Runs d ss () d' ∧ Settled onlyFiles (appliedAll m changes) d' := by
  refine recoverProgram_runs r.wellFormed r.only (fun h => absurd r.directory h) fun hdir => ?_
  obtain ⟨content, hnode, -⟩ := r.manifest
  obtain ⟨ss, d', hruns, s, -⟩ := r.replay_runs hb hp hj
  exact ⟨ss, d', recoverBatch_runs_replay hdir hnode hruns, s⟩

/-! ## Batches as units -/

/-- Where a batch can be cut: before its commitment the records are the old ones, and after it the
replay is interrupted or done. -/
theorem applyProgram_interrupted (s : Settled waiting m d)
    (hw : ∀ name, ¬ waiting name .directory) (hb : Json.Unpaired batch) (hp : StorableChanges changes)
    (h : (applyProgram batch changes).Stops d complete d') :
    commitStep batch ∉ complete ∧ Uncommitted waiting batch m d' ∨
      commitStep batch ∈ complete ∧ (Interrupted waiting batch changes m d'
        ∨ Uncommitted waiting batch (appliedAll m changes) d') := by
  obtain ⟨content, hc, -⟩ := Manifest.read_encode hb hp.unpaired
  obtain ⟨e, heq⟩ := applyProgram_eq hc
  have hnone : ∀ {m' d'}, Settled waiting m' d' → d'.node? (batchPath batch) ≠ some .directory :=
    fun s' hdir => hw _ (s'.others _ _ hdir)
  rw [heq] at h
  by_cases htaken : Taken batch d
  · -- A refused batch does no step.
    obtain ⟨hsteps, f, hf⟩ := commitBatch_refused s.wellFormed htaken
    obtain ⟨rfl, rfl⟩ := h.of_no_steps (Program.steps_bind_of_refused hsteps hf)
    exact .inl ⟨List.not_mem_nil, s.uncommitted (begun_start s.wellFormed (hnone s))⟩
  · obtain ⟨ss, d₁, hruns, hmem, hd₁⟩ := commitBatch_runs s.wellFormed htaken hc
    have r := s.replaying hd₁
    rcases h.of_runs_andThen hruns with h₁ | ⟨more, rfl, h₂⟩
    · rcases commitBatch_stops s.wellFormed (hnone s) hc h₁ with ⟨hn, hd⟩ | ⟨hmem, hd⟩
      · exact .inl ⟨hn, s.uncommitted hd⟩
      · exact .inr ⟨hmem, .inl (.inl ⟨0, Nat.zero_le _, s.replaying hd⟩)⟩
    · refine .inr ⟨List.mem_append_left _ hmem, ?_⟩
      obtain ⟨ss', d₂, hruns', s₂, -⟩ := r.replay_runs hb hp (Nat.zero_le _)
      rcases (Program.stops_told_iff.1 h₂).of_runs_andThen hruns' with hr | ⟨more', -, hend⟩
      · exact r.replay_stops hb hp hr
      · obtain ⟨-, rfl⟩ := hend.of_no_steps rfl
        exact .inr (s₂.uncommitted (begun_start s₂.wellFormed (hnone s₂)))

/-- A batch that keeps all kinds is cut where its replay can be done again or is done. -/
theorem applyProgram_stops (s : Settled waiting m d) (hw : ∀ name, ¬ waiting name .directory)
    (hb : Json.Unpaired batch) (hp : StorableChanges changes) (hkeep : KeepsKinds m changes)
    (h : (applyProgram batch changes).Stops d complete d') :
    commitStep batch ∉ complete ∧ Uncommitted waiting batch m d' ∨
      commitStep batch ∈ complete ∧ ((∃ j ≤ changes.length, Replaying waiting batch changes m j d')
        ∨ Uncommitted waiting batch (appliedAll m changes) d') := by
  rcases applyProgram_interrupted s hw hb hp h with hbefore | ⟨hmem, hd | u⟩
  · exact .inl hbefore
  · exact .inr ⟨hmem, .inl (hd.replaying hp hkeep)⟩
  · exact .inr ⟨hmem, .inr u⟩

/-- A batch whose name is free is put in place. -/
theorem applyProgram_runs (s : Settled waiting m d) (hb : Json.Unpaired batch)
    (hp : StorableChanges changes) (hfree : ¬ Taken batch d) :
    ∃ ss d', (applyProgram batch changes).Runs d ss batch d'
      ∧ Settled waiting (appliedAll m changes) d' ∧ d'.node? pending = some .directory := by
  obtain ⟨content, hc, -⟩ := Manifest.read_encode hb hp.unpaired
  obtain ⟨e, heq⟩ := applyProgram_eq hc
  rw [heq]
  obtain ⟨ss, d₁, hruns, -, hd₁⟩ := commitBatch_runs s.wellFormed hfree hc
  obtain ⟨ss', d', hreplay, s'⟩ := (s.replaying hd₁).replay_runs hb hp (Nat.zero_le _)
  exact ⟨_, d', hruns.andThen (.told e (hreplay.andThen (.done batch d'))), s'⟩

/-- A batch is put in place, or refused before anything is done. -/
theorem applyProgram_runs_or_refused (s : Settled waiting m d) (hb : Json.Unpaired batch)
    (hp : StorableChanges changes) :
    (∃ ss d', (applyProgram batch changes).Runs d ss batch d'
        ∧ Settled waiting (appliedAll m changes) d' ∧ d'.node? pending = some .directory)
      ∨ (makeBatch (batchPath batch)).steps d = []
        ∧ ∃ f, (makeBatch (batchPath batch)).run.Yields d (.error f) d := by
  by_cases htaken : Taken batch d
  · exact .inr (makeBatch_refused s.wellFormed htaken)
  · exact .inl (applyProgram_runs s hb hp htaken)

/-- A tidy repository without a batch is settled. -/
theorem settled_of_tidy (w : d.WellFormed) (t : Tidy d)
    (hnone : ∀ name, d.node? (batchPath name) ≠ some .directory) :
    Settled onlyFiles (record? d) d :=
  ⟨w, t.represents, fun name _ hn hdir => hnone name (hdir ▸ hn)⟩

/-- **Crash atomicity.** A batch may be cut behind any of its steps, in a write that leaves any
bytes, or while its directory is taken away in any order.  When the repository is opened again, no
batch is left, and the records are those before the batch if its manifest had not got its name, and
those of the whole batch if it had. -/
theorem apply_crash_atomic {name : List Char} (w : d.WellFormed) (t : Tidy d)
    (hnone : ∀ batch, d.node? (batchPath batch) ≠ some .directory) (hp : StorableChanges changes)
    (hkeep : KeepsKinds (record? d) changes)
    (h : (applyProgram (Text.ofChars name) changes).Stops d complete d') :
    let opened := Procedure.run recover d'
    let whole := Procedure.run (apply (Text.ofChars name) changes) d
    opened.result = .ok () ∧ Tidy opened.state
      ∧ (∀ batch, opened.state.node? (batchPath batch) ≠ some .directory)
      ∧ (commitStep (Text.ofChars name) ∉ complete → record? opened.state = record? d)
      ∧ (commitStep (Text.ofChars name) ∈ complete →
        record? opened.state = appliedAll (record? d) changes
          ∧ record? opened.state = record? whole.state) := by
  have hb : Json.Unpaired (Text.ofChars name) := Json.unpaired_ofChars name
  have s := settled_of_tidy w t hnone
  have hopen : ∀ {m' : Contents}, (∃ ss d'', recoverProgram.Runs d' ss () d'' ∧ Settled onlyFiles m' d'') →
      (Procedure.run recover d').result = .ok () ∧ Settled onlyFiles m' (Procedure.run recover d').state := by
    rintro m' ⟨ss, d'', hruns, s'⟩
    refine ⟨hruns.result_eq, ?_⟩
    have hstate : (Procedure.run recover d').state = d'' := hruns.state_eq
    rw [hstate]
    exact s'
  have hnone' : ∀ {m' d''}, Settled onlyFiles m' d'' →
      ∀ batch, d''.node? (batchPath batch) ≠ some .directory :=
    fun s' b hdir => not_onlyFiles b (s'.others b _ hdir)
  rcases applyProgram_stops s not_onlyFiles hb hp hkeep h with ⟨hn, u⟩ | ⟨hmem, hd⟩
  · obtain ⟨hresult, s'⟩ := hopen u.recover_runs
    exact ⟨hresult, s'.represents.tidy, hnone' s', fun _ => s'.represents.record?_eq,
      fun hmem => absurd hmem hn⟩
  · have hrecover : ∃ ss d'', recoverProgram.Runs d' ss () d''
        ∧ Settled onlyFiles (appliedAll (record? d) changes) d'' := by
      rcases hd with ⟨j, hj, r⟩ | u
      · exact r.recover_runs hb hp hj
      · exact u.recover_runs
    obtain ⟨hresult, s'⟩ := hopen hrecover
    refine ⟨hresult, s'.represents.tidy, hnone' s', fun hn => absurd hmem hn, fun _ => ?_⟩
    refine ⟨s'.represents.record?_eq, ?_⟩
    rcases applyProgram_runs_or_refused s hb hp with ⟨ss, d₁, hruns, s₁, -⟩ | ⟨hsteps, f, hf⟩
    · have hstate : (Procedure.run (apply (Text.ofChars name) changes) d).state = d₁ :=
        hruns.state_eq
      rw [hstate, s'.represents.record?_eq, s₁.represents.record?_eq]
    · -- A refused batch does no step, so that it is never committed.
      exfalso
      rcases h.of_andThen with h₁ | ⟨ss, _, d₁, more, hruns, -, -⟩
      · obtain ⟨rfl, -⟩ := h₁.of_no_steps hsteps
        cases hmem
      · cases (hruns.yields.unique hf).1

/-- A repository with one record. -/
def oneRecord : Disk := Disk.put [file "simple" "a"] (.file [1]) {}

/-- A batch that stores the record anew, and another one. -/
def twoChanges : List Change := [.update "simple" "a" [2, 3], .create "task" "b" [4]]

theorem represents_oneRecord :
    Represents oneRecord (Function.update (fun _ => none) "a" (some ("simple", [1]))) :=
  represents_empty.put_file (by decide) (by simp) [1]

/-- The batch is cut while its first record is being staged: half of the bytes are written. -/
theorem apply_crash_atomic_torn :
    let torn := Disk.put [".pending", "1", "000000.json"] (.file [2])
      ((oneRecord.put [".pending"] .directory).put [".pending", "1"] .directory)
    let opened := Procedure.run recover torn
    opened.result = .ok () ∧ record? opened.state = record? oneRecord := by
  have hkinds : KeepsKinds (record? oneRecord) twoChanges := by
    rw [represents_oneRecord.record?_eq]
    intro c hc _ v hv
    simp only [twoChanges, List.mem_cons, List.not_mem_nil, or_false] at hc
    rcases hc with rfl | rfl
    · cases hv; rfl
    · cases hv
  have hstops : (applyProgram (Text.ofChars ['1']) twoChanges).Stops oneRecord
      [.makeDirectory [".pending"], .makeDirectory [".pending", "1"]]
      (Disk.put [".pending", "1", "000000.json"] (.file [2])
        ((oneRecord.put [".pending"] .directory).put [".pending", "1"] .directory)) :=
    ⟨_, rfl, .inr ⟨_, rfl, .write _ _ [2]⟩⟩
  have hnone : ∀ batch, oneRecord.node? (batchPath batch) ≠ some .directory := by
    simp [oneRecord, Disk.put, Disk.node?, batchPath, List.lookup_cons]
  have h := apply_crash_atomic ⟨by decide, by decide, by decide⟩ represents_oneRecord.tidy hnone
    ⟨⟨by decide, by decide, by decide⟩, by decide +kernel⟩ hkinds hstops
  exact ⟨h.1, h.2.2.2.1 (by decide)⟩

end RecordStore.Repository
