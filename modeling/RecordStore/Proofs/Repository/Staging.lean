import RecordStore.Proofs.Repository.Replay

/-!
# RecordStore.Proofs.Repository.Staging

Writing a batch up to its commitment.  The directory of the batch is made, the data of its changes is
staged there, and the manifest is written and gets its name.  Until then the repository has `Begun`
the batch: it has no manifest, and nothing was touched but the directory of batches.  With the
manifest it is `Committed`.
-/

namespace RecordStore.Repository

open Disk (Program Step)
open Disk.Program (Stops)

/-- The place at which a manifest is written. -/
def draftPath (batch : Text) : Path := batchPath batch ++ [Manifest.draftName]

/-- The step that writes the manifest. -/
def draftStep (batch : Text) (content : Bytes) : Step := .write (draftPath batch) content

/-- The step that commits a batch. -/
def commitStep (batch : Text) : Step := .move (draftPath batch) (manifestPath batch)

/-- The name of a batch is taken, or the name of the directory around it. -/
def Taken (batch : Text) (d : Disk) : Prop :=
  (∃ bytes, d.node? pending = some (.file bytes)) ∨ ∃ n, d.node? (batchPath batch) = some n

/-- A repository in which a batch was begun: it has no manifest, and nothing else was touched but the
directory of batches. -/
structure Begun (batch : Text) (d d' : Disk) : Prop where
  wellFormed : d'.WellFormed
  noManifest : d'.node? (manifestPath batch) = none
  other : ∀ p, p ≠ pending → Disk.encloses (batchPath batch) p = false → d'.node? p = d.node? p

/-- A repository in which the first `j` changes of a batch are staged. -/
structure Staged (batch : Text) (changes : List Change) (j : Nat) (d d' : Disk) : Prop
    extends Begun batch d d' where
  directory : d'.node? (batchPath batch) = some .directory
  noDraft : d'.node? (draftPath batch) = none
  staged : ∀ n c, changes[n]? = some c →
    d'.node? (stagedPath batch n) = if n < j then c.data?.map .file else none

/-- A repository in which a batch is committed, and no change of it is done. -/
structure Committed (batch : Text) (changes : List Change) (d d' : Disk) : Prop where
  wellFormed : d'.WellFormed
  manifest : ∃ content, d'.node? (manifestPath batch) = some (.file content)
    ∧ Manifest.encode batch changes = .ok content
  staged : ∀ n c, changes[n]? = some c → d'.node? (stagedPath batch n) = c.data?.map .file
  other : ∀ p, p ≠ pending → Disk.encloses (batchPath batch) p = false → d'.node? p = d.node? p

variable {batch : Text} {changes : List Change} {d d' d₁ : Disk} {complete : List Step}

/-! ## The directory of a batch -/

/-- Before anything is done a batch is begun, where its name is no directory. -/
theorem begun_start (w : d.WellFormed) (hfree : d.node? (batchPath batch) ≠ some .directory) :
    Begun batch d d where
  wellFormed := w
  noManifest := w.node?_append_eq_none hfree _ (by simp)
  other := fun _ _ _ => rfl

theorem makeBatch_eq (batch : Text) : makeBatch (batchPath batch) = .looked fun d =>
    if d.holds pending then Program.step (.makeDirectory (batchPath batch))
    else .stepped (.makeDirectory pending) (Program.step (.makeDirectory (batchPath batch))) := by
  refine congrArg Program.looked (funext fun d => ?_)
  cases h : d.holds pending with
  | true => simp [Program.andThen, h]
  | false => simp [Program.andThen, h]; rfl

/-- A batch directory that was made is empty. -/
theorem staged_of_makeDirectory (w : d₁.WellFormed) (hsame : ∀ p, p ≠ pending → d₁.node? p = d.node? p)
    (hmake : d₁.perform (.makeDirectory (batchPath batch)) = .ok d') (changes : List Change) :
    Staged batch changes 0 d d' := by
  obtain ⟨hp, hfree, rfl⟩ := Disk.eq_of_perform_makeDirectory hmake
  have hput := Disk.node?_put (p := batchPath batch) (by simp [batchPath]) .directory d₁
  have hbelow : ∀ name, (d₁.put (batchPath batch) .directory).node? (batchPath batch ++ [name])
      = none := by
    intro name
    rw [hput, if_neg (by simp)]
    exact w.node?_append_eq_none (by rw [hfree]; simp) _ (by simp)
  refine ⟨⟨w.put (by simp [batchPath]) hp (.inl rfl), hbelow _, fun p hp hout => ?_⟩, ?_, hbelow _, ?_⟩
  · rw [hput, if_neg, hsame p hp]
    rintro rfl
    rw [Disk.encloses_self] at hout
    cases hout
  · rw [hput, if_pos rfl]
  · intro n c _
    rw [if_neg (Nat.not_lt_zero n)]
    exact hbelow _

theorem wellFormed_put_pending (w : d.WellFormed) : (d.put pending .directory).WellFormed :=
  w.put (by simp [pending]) (by simp [pending]) (.inl rfl)

theorem node?_put_pending {p : Path} (hp : p ≠ pending) :
    (d.put pending .directory).node? p = d.node? p := by
  rw [Disk.node?_put (by simp [pending]), if_neg hp]

/-- A batch directory is made where its name is free. -/
theorem makeBatch_runs (w : d.WellFormed) (hp : ∀ bytes, d.node? pending ≠ some (.file bytes))
    (hfree : d.node? (batchPath batch) = none) (changes : List Change) :
    ∃ ss d', (makeBatch (batchPath batch)).Runs d ss () d' ∧ Staged batch changes 0 d d' := by
  rw [makeBatch_eq]
  have hparent : (batchPath batch).dropLast = pending := rfl
  cases hn : d.node? pending with
  | none =>
      have hfree' : (d.put pending .directory).node? (batchPath batch) = none := by
        rw [node?_put_pending (by simp [batchPath, pending]), hfree]
      have hdir : (d.put pending .directory).node? pending = some .directory := by
        rw [Disk.node?_put (by simp [pending]), if_pos rfl]
      have hmake := Disk.perform_makeDirectory (p := pending) (by simp [pending]) hn
      have hmake' := Disk.perform_makeDirectory (p := batchPath batch) (hparent ▸ hdir) hfree'
      have hholds : d.holds pending = false := by simp [Disk.holds, hn]
      refine ⟨[.makeDirectory pending, .makeDirectory (batchPath batch)], _, .looked ?_,
        staged_of_makeDirectory (wellFormed_put_pending w) (fun _ => node?_put_pending) hmake' changes⟩
      simp only [hholds]
      exact .stepped hmake (.step hmake')
  | some n =>
      cases n with
      | file bytes => exact absurd hn (hp bytes)
      | directory =>
          have hmake := Disk.perform_makeDirectory (p := batchPath batch) (hparent ▸ hn) hfree
          have hholds : d.holds pending = true := Disk.holds_iff.2 ⟨_, hn⟩
          refine ⟨[.makeDirectory (batchPath batch)], _, .looked ?_,
            staged_of_makeDirectory w (fun _ _ => rfl) hmake changes⟩
          simp only [hholds]
          exact .step hmake

/-- Where the name of a batch is taken, nothing is done. -/
theorem makeBatch_refused (w : d.WellFormed) (h : Taken batch d) :
    (makeBatch (batchPath batch)).steps d = []
      ∧ ∃ f, (makeBatch (batchPath batch)).run.Yields d (.error f) d := by
  have hperform : d.holds pending = true
      ∧ ∃ e, d.perform (.makeDirectory (batchPath batch)) = .error e := by
    rcases h with ⟨bytes, hn⟩ | ⟨n, hn⟩
    · refine ⟨Disk.holds_iff.2 ⟨_, hn⟩, .notDirectory, ?_⟩
      have hparent : (batchPath batch).dropLast = pending := rfl
      simp [Disk.perform, Disk.inDirectory, hparent, hn, bind, Except.bind]
    · have hparent : d.node? (batchPath batch).dropLast = some .directory := w.node?_dropLast hn
      have hholds : d.holds (batchPath batch) = true := Disk.holds_iff.2 ⟨_, hn⟩
      refine ⟨Disk.holds_iff.2 ⟨_, hparent⟩, .alreadyExists, ?_⟩
      simp [Disk.perform, Disk.inDirectory_ok hparent, hholds, bind, Except.bind, throw,
        throwThe, MonadExceptOf.throw]
  obtain ⟨hholds, e, he⟩ := hperform
  rw [makeBatch_eq]
  constructor
  · simp [Program.steps, Program.step, hholds, he]
  · refine ⟨.storage e, Program.yields_looked_iff.2 ?_⟩
    simp only [hholds, if_true]
    exact Program.yields_of_refused _ he

/-- A batch directory that was made is empty, however it was made. -/
theorem staged_of_makeBatch (w : d.WellFormed) {ss : List Step}
    (h : (makeBatch (batchPath batch)).Runs d ss () d') (changes : List Change) :
    Staged batch changes 0 d d' := by
  rw [makeBatch_eq] at h
  cases h with
  | looked h =>
      dsimp only at h
      split at h
      · cases h with
        | stepped hd h =>
            cases h
            exact staged_of_makeDirectory w (fun _ _ => rfl) hd changes
      · cases h with
        | stepped hd h =>
            obtain ⟨-, -, rfl⟩ := Disk.eq_of_perform_makeDirectory hd
            cases h with
            | stepped hd h =>
                cases h
                exact staged_of_makeDirectory (wellFormed_put_pending w) (fun _ => node?_put_pending)
                  hd changes

/-- A batch is begun while its directory is made. -/
theorem makeBatch_stops (w : d.WellFormed) (hfree : d.node? (batchPath batch) ≠ some .directory)
    (h : (makeBatch (batchPath batch)).Stops d complete d') : Begun batch d d' := by
  have hmake : ∀ {d₁ : Disk} {complete : List Step}, d₁.WellFormed →
      (∀ p, p ≠ pending → d₁.node? p = d.node? p) →
      (Program.step (.makeDirectory (batchPath batch))).Stops d₁ complete d' → Begun batch d d' := by
    intro d₁ complete w₁ hsame h
    rcases h.of_step with ⟨-, rfl | ⟨-, htorn⟩⟩ | ⟨-, hd⟩
    · have hbegun := begun_start w₁ (by rwa [hsame _ (by simp [batchPath, pending])])
      exact ⟨w₁, hbegun.noManifest, fun p hp _ => hsame p hp⟩
    · cases htorn
    · exact (staged_of_makeDirectory w₁ hsame hd []).toBegun
  rw [makeBatch_eq, Program.stops_looked_iff] at h
  split at h
  · exact hmake w (fun _ _ => rfl) h
  · rcases Program.stops_stepped_iff.1 h with ⟨-, rfl | ⟨-, htorn⟩⟩ | ⟨d₁, more, hd, -, h⟩
    · exact begun_start w hfree
    · cases htorn
    · obtain ⟨-, -, rfl⟩ := Disk.eq_of_perform_makeDirectory hd
      exact hmake (wellFormed_put_pending w) (fun _ => node?_put_pending) h

theorem makeBatch_does (batch batch' : Text) :
    (makeBatch (batchPath batch)).Does (· ≠ commitStep batch') := by
  rw [makeBatch_eq]
  intro d
  dsimp only
  split
  · exact ⟨nofun, trivial⟩
  · exact ⟨nofun, nofun, trivial⟩

/-! ## Staging -/

/-- The staging of a change: its bytes are written, if it has some. -/
def stageOne (batch : Text) (n : Nat) (c : Change) : Program Unit :=
  match c.data? with
  | some data => Program.step (.write (stagedPath batch n) data)
  | none => pure ()

theorem stage_cons (batch : Text) (n : Nat) (c : Change) (cs : List Change) :
    stage (batchPath batch) n (c :: cs)
      = stageOne batch n c >>= fun _ => stage (batchPath batch) (n + 1) cs := by
  cases c <;> rfl

/-- Files of the batch directory other than the manifest do not matter. -/
theorem Begun.put (b : Begun batch d d') (hdir : d'.node? (batchPath batch) = some .directory)
    {name : Text} (hname : name ≠ Manifest.fileName)
    (hfree : d'.node? (batchPath batch ++ [name]) ≠ some .directory) (bytes : Bytes) :
    Begun batch d (d'.put (batchPath batch ++ [name]) (.file bytes)) := by
  have hput := Disk.node?_put (p := batchPath batch ++ [name]) (by simp) (.file bytes) d'
  refine ⟨b.wellFormed.put (by simp) (by rwa [List.dropLast_concat]) (.inr hfree), ?_, ?_⟩
  · rw [hput, if_neg, b.noManifest]
    simpa [manifestPath] using Ne.symm hname
  · intro p hp hout
    rw [hput, if_neg, b.other p hp hout]
    rintro rfl
    rw [Disk.encloses_append] at hout
    cases hout

namespace Staged

variable {j : Nat} {c : Change}

theorem stagedPath_not_directory (s : Staged batch changes j d d') (hc : changes[j]? = some c) :
    d'.node? (stagedPath batch j) ≠ some .directory := by
  rw [s.staged j c hc, if_neg (Nat.lt_irrefl j)]
  simp

theorem perform_write (s : Staged batch changes j d d') (hc : changes[j]? = some c) (data : Bytes) :
    d'.perform (.write (stagedPath batch j) data)
      = .ok (d'.put (stagedPath batch j) (.file data)) := by
  refine Disk.perform_write ?_ (s.stagedPath_not_directory hc) data
  rw [stagedPath, List.dropLast_concat]
  exact s.directory

/-- One change more is staged. -/
theorem stageOne_runs (s : Staged batch changes j d d') (hc : changes[j]? = some c) :
    ∃ ss d'', (stageOne batch j c).Runs d' ss () d'' ∧ Staged batch changes (j + 1) d d'' := by
  cases hdata : c.data? with
  | none =>
      refine ⟨[], d', ?_, s.toBegun, s.directory, s.noDraft, ?_⟩
      · rw [stageOne, hdata]
        exact .done () d'
      · intro n c' hc'
        rw [s.staged n c' hc']
        by_cases hn : n = j
        · subst hn
          rw [hc] at hc'
          cases hc'
          simp [hdata]
        · have hiff : n < j ↔ n < j + 1 := by omega
          simp only [hiff]
  | some data =>
      have hput := Disk.node?_put (p := stagedPath batch j) (by simp [stagedPath]) (.file data) d'
      refine ⟨[.write (stagedPath batch j) data], _, ?_, s.put s.directory
        (Manifest.stagedName_ne_fileName j) (s.stagedPath_not_directory hc) data, ?_, ?_, ?_⟩
      · rw [stageOne, hdata]
        exact .step (s.perform_write hc data)
      · rw [← stagedPath, hput, if_neg (by simp [stagedPath, batchPath]), s.directory]
      · rw [← stagedPath, hput, if_neg, s.noDraft]
        simpa [draftPath, stagedPath] using (Manifest.stagedName_ne_draftName j).symm
      · intro n c' hc'
        rw [← stagedPath, hput]
        by_cases hn : n = j
        · subst hn
          rw [hc] at hc'
          cases hc'
          simp [hdata]
        · rw [if_neg fun h => hn (stagedPath_inj h), s.staged n c' hc']
          have hiff : n < j ↔ n < j + 1 := by omega
          simp only [hiff]

/-- A change that is being staged is not committed. -/
theorem stageOne_stops (s : Staged batch changes j d d₁) (hc : changes[j]? = some c)
    (h : (stageOne batch j c).Stops d₁ complete d') : Begun batch d d' := by
  rw [stageOne] at h
  split at h
  · next data hdata =>
    have hput := s.put s.directory (Manifest.stagedName_ne_fileName j) (s.stagedPath_not_directory hc)
    rcases h.of_step with ⟨-, rfl | ⟨-, htorn⟩⟩ | ⟨-, hd⟩
    · exact s.toBegun
    · cases htorn with
      | write _ _ torn => exact hput torn
    · rw [s.perform_write hc] at hd
      cases hd
      exact hput data
  · obtain ⟨-, rfl⟩ := h.of_no_steps rfl
    exact s.toBegun

/-- All changes are staged, one after the other. -/
theorem stage_runs (s : Staged batch changes j d d') {rest : List Change}
    (hrest : changes.drop j = rest) (hj : j ≤ changes.length) :
    ∃ ss d'', (stage (batchPath batch) j rest).Runs d' ss () d''
      ∧ Staged batch changes changes.length d d'' := by
  induction rest generalizing j d' with
  | nil =>
      have hlen : changes.length ≤ j := List.drop_eq_nil_iff.1 hrest
      have hend : j = changes.length := by omega
      subst hend
      exact ⟨[], d', .done () d', s⟩
  | cons c rest ih =>
      have hget : changes[j]? = some c := by rw [← List.head?_drop, hrest]; rfl
      have hdrop : changes.drop (j + 1) = rest := by rw [← List.tail_drop, hrest]; rfl
      obtain ⟨ss₁, d₁, hruns₁, s₁⟩ := s.stageOne_runs hget
      obtain ⟨ss, d'', hruns, s'⟩ := ih s₁ hdrop (List.getElem?_eq_some_iff.1 hget).1
      exact ⟨ss₁ ++ ss, d'', by rw [stage_cons]; exact hruns₁.andThen hruns, s'⟩

/-- A batch that is being staged is not committed. -/
theorem stage_stops (s : Staged batch changes j d d₁) {rest : List Change}
    (hrest : changes.drop j = rest)
    (h : (stage (batchPath batch) j rest).Stops d₁ complete d') : Begun batch d d' := by
  induction rest generalizing j d₁ complete with
  | nil =>
      obtain ⟨-, rfl⟩ := h.of_no_steps rfl
      exact s.toBegun
  | cons c rest ih =>
      have hget : changes[j]? = some c := by rw [← List.head?_drop, hrest]; rfl
      have hdrop : changes.drop (j + 1) = rest := by rw [← List.tail_drop, hrest]; rfl
      obtain ⟨ss₁, d₂, hruns₁, s₁⟩ := s.stageOne_runs hget
      rw [stage_cons] at h
      rcases h.of_runs_andThen hruns₁ with h | ⟨more, -, h⟩
      · exact s.stageOne_stops hget h
      · exact ih s₁ hdrop h

end Staged

theorem stage_does (batch batch' : Text) (n : Nat) (cs : List Change) :
    (stage (batchPath batch) n cs).Does (· ≠ commitStep batch') := by
  induction cs generalizing n with
  | nil => trivial
  | cons c cs ih =>
      rw [stage_cons]
      refine Program.Does.andThen ?_ fun _ => ih (n + 1)
      rw [stageOne]
      split
      · exact ⟨nofun, trivial⟩
      · trivial

/-! ## The commitment -/

section Commitment

variable {content : Bytes}

/-- The disk with a written manifest that has not got its name. -/
theorem Staged.put_draft (s : Staged batch changes changes.length d d') (torn : Bytes) :
    Begun batch d (d'.put (draftPath batch) (.file torn)) :=
  s.put s.directory Manifest.draftName_ne_fileName (by rw [← draftPath, s.noDraft]; simp) torn

theorem Staged.perform_draft (s : Staged batch changes changes.length d d') (content : Bytes) :
    d'.perform (draftStep batch content) = .ok (d'.put (draftPath batch) (.file content)) := by
  refine Disk.perform_write ?_ (by rw [s.noDraft]; simp) content
  rw [draftPath, List.dropLast_concat]
  exact s.directory

theorem draftPath_ne_manifestPath (batch : Text) : draftPath batch ≠ manifestPath batch := by
  simpa [draftPath, manifestPath] using Manifest.draftName_ne_fileName

/-- The disk on which the manifest has got its name. -/
def committed (batch : Text) (content : Bytes) (d : Disk) : Disk :=
  ((d.put (draftPath batch) (.file content)).erase (draftPath batch)).put (manifestPath batch)
    (.file content)

theorem node?_committed (batch : Text) (content : Bytes) (d : Disk) (q : Path) :
    (committed batch content d).node? q = if q = manifestPath batch then some (.file content)
      else if q = draftPath batch then none else d.node? q := by
  rw [committed, Disk.node?_put (by simp [manifestPath]), Disk.node?_erase (by simp [draftPath]),
    Disk.node?_put (by simp [draftPath])]
  by_cases h : q = draftPath batch <;> simp [h]

/-- The manifest gets its name by one step. -/
theorem Staged.perform_commit (s : Staged batch changes changes.length d d') (content : Bytes) :
    (d'.put (draftPath batch) (.file content)).perform (commitStep batch)
      = .ok (committed batch content d') := by
  have hput := Disk.node?_put (p := draftPath batch) (by simp [draftPath]) (.file content) d'
  refine Disk.perform_move_file (by rw [hput, if_pos rfl]) ?_ (draftPath_ne_manifestPath batch) ?_ ?_
  · rw [hput, if_neg (draftPath_ne_manifestPath batch).symm, s.noManifest]
    simp
  · simp [Disk.encloses, draftPath, manifestPath, batchPath, Text.dropPrefix?,
      Manifest.draftName_ne_fileName]
  · simp [Disk.encloses, draftPath, manifestPath, batchPath, Text.dropPrefix?,
      Manifest.draftName_ne_fileName.symm]

/-- A batch whose manifest has got its name is committed. -/
theorem Staged.committed (s : Staged batch changes changes.length d d')
    (hc : Manifest.encode batch changes = .ok content) :
    Committed batch changes d (committed batch content d') := by
  have hnode := node?_committed batch content d'
  have hdraft := s.put_draft content
  refine ⟨?_, ⟨content, by rw [hnode, if_pos rfl], hc⟩, ?_, ?_⟩
  · refine (hdraft.wellFormed.erase_file ?_).put (by simp [manifestPath]) ?_ (.inr ?_)
    · rw [Disk.node?_put (by simp [draftPath]), if_pos rfl]
      simp
    · rw [manifestPath, List.dropLast_concat, Disk.node?_erase (by simp [draftPath]),
        if_neg (by simp [draftPath]), Disk.node?_put (by simp [draftPath]),
        if_neg (by simp [draftPath])]
      exact s.directory
    · rw [Disk.node?_erase (by simp [draftPath]), if_neg (draftPath_ne_manifestPath batch).symm,
        hdraft.noManifest]
      simp
  · intro n c hget
    have hlen : n < changes.length := (List.getElem?_eq_some_iff.1 hget).1
    have hdraft : stagedPath batch n ≠ draftPath batch := by
      simpa [draftPath, stagedPath] using Manifest.stagedName_ne_draftName n
    rw [hnode, if_neg (manifestPath_ne_stagedPath batch n).symm, if_neg hdraft, s.staged n c hget,
      if_pos hlen]
  · intro p hp hout
    have hne : ∀ name, p ≠ batchPath batch ++ [name] := by
      rintro name rfl
      rw [Disk.encloses_append] at hout
      cases hout
    have hmanifest : p ≠ manifestPath batch := hne _
    have hdraft : p ≠ draftPath batch := hne _
    rw [hnode, if_neg hmanifest, if_neg hdraft, s.other p hp hout]

theorem Committed.directory (h : Committed batch changes d d') :
    d'.node? (batchPath batch) = some .directory := by
  obtain ⟨content, hn, -⟩ := h.manifest
  have hdir := h.wellFormed.node?_dropLast hn
  rwa [manifestPath, List.dropLast_concat] at hdir

end Commitment

/-! ## Up to the commitment -/

/-- What is done up to the commitment of a batch. -/
def commitBatch (batch : Text) (changes : List Change) (content : Bytes) : Program Unit := do
  makeBatch (batchPath batch)
  stage (batchPath batch) 0 changes
  Program.step (draftStep batch content)
  Program.step (commitStep batch)

section CommitBatch

variable {content : Bytes}

/-- A batch is committed, and then replayed. -/
theorem applyProgram_eq (hc : Manifest.encode batch changes = .ok content) :
    ∃ e, applyProgram batch changes = commitBatch batch changes content >>= fun _ =>
      .told e (replay (batchPath batch) >>= fun _ => pure batch) := by
  have hmanifest : Program.ofExcept (Manifest.encode batch changes) = .done content := by
    rw [hc]; rfl
  refine ⟨⟨.info, "repository", "batch committed",
    [("batch", batch.quoted), ("writes", showNat changes.length)]⟩, ?_⟩
  simp only [applyProgram, hmanifest, commitBatch, bind_assoc]
  rfl

/-- A batch whose name is free is committed. -/
theorem commitBatch_runs (w : d.WellFormed) (hfree : ¬ Taken batch d)
    (hc : Manifest.encode batch changes = .ok content) :
    ∃ ss d', (commitBatch batch changes content).Runs d ss () d' ∧ commitStep batch ∈ ss
      ∧ Committed batch changes d d' := by
  rw [Taken, not_or, not_exists] at hfree
  have hnone : d.node? (batchPath batch) = none :=
    Option.eq_none_iff_forall_not_mem.2 fun n hn => hfree.2 ⟨n, hn⟩
  obtain ⟨ss₁, d₁, hruns₁, s₁⟩ := makeBatch_runs w hfree.1 hnone changes
  obtain ⟨ss₂, d₂, hruns₂, s₂⟩ := s₁.stage_runs List.drop_zero (Nat.zero_le _)
  exact ⟨ss₁ ++ (ss₂ ++ ([draftStep batch content] ++ [commitStep batch])), _,
    hruns₁.andThen (hruns₂.andThen (.andThen (.step (s₂.perform_draft content))
      (.step (s₂.perform_commit content)))), by simp, s₂.committed hc⟩

/-- A batch whose name is taken is refused before anything is done. -/
theorem commitBatch_refused (w : d.WellFormed) (h : Taken batch d) :
    (commitBatch batch changes content).steps d = []
      ∧ ∃ f, (commitBatch batch changes content).run.Yields d (.error f) d := by
  obtain ⟨hsteps, f, hf⟩ := makeBatch_refused w h
  refine ⟨Program.steps_bind_of_refused hsteps hf, f, ?_⟩
  rw [commitBatch, Program.run_bind]
  exact hf.bind_error

/-- Where a batch can be cut up to its commitment. -/
theorem commitBatch_stops (w : d.WellFormed) (hfree : d.node? (batchPath batch) ≠ some .directory)
    (hc : Manifest.encode batch changes = .ok content)
    (h : (commitBatch batch changes content).Stops d complete d') :
    commitStep batch ∉ complete ∧ Begun batch d d'
      ∨ commitStep batch ∈ complete ∧ Committed batch changes d d' := by
  have hmake : ∀ {s : Step}, s ∈ (makeBatch (batchPath batch)).steps d → s ≠ commitStep batch :=
    (makeBatch_does batch batch).of_mem_steps
  rcases h.of_andThen with h₁ | ⟨ss₁, _, d₁, more, hruns₁, rfl, hrest⟩
  · exact .inl ⟨fun hmem => hmake (h₁.mem_steps hmem) rfl, makeBatch_stops w hfree h₁⟩
  have hmake₁ : commitStep batch ∉ ss₁ := fun hmem => hmake (hruns₁.steps_eq ▸ hmem) rfl
  have s₁ := staged_of_makeBatch w hruns₁ changes
  obtain ⟨ss₂, d₂, hruns₂, s₂⟩ := s₁.stage_runs List.drop_zero (Nat.zero_le _)
  have hstage : ∀ {s : Step}, s ∈ (stage (batchPath batch) 0 changes).steps d₁ →
      s ≠ commitStep batch := (stage_does batch batch 0 changes).of_mem_steps
  rcases hrest.of_runs_andThen hruns₂ with h₂ | ⟨more, rfl, h₃⟩
  · refine .inl ⟨?_, s₁.stage_stops List.drop_zero h₂⟩
    rw [List.mem_append, not_or]
    exact ⟨hmake₁, fun hmem => hstage (h₂.mem_steps hmem) rfl⟩
  have hmake₂ : commitStep batch ∉ ss₂ := fun hmem => hstage (hruns₂.steps_eq ▸ hmem) rfl
  have hdraft : commitStep batch ≠ draftStep batch content := nofun
  rcases Stops.of_runs_andThen (.step (s₂.perform_draft content)) h₃ with hd | ⟨more, rfl, h₄⟩
  · rcases hd.of_step with ⟨rfl, rfl | ⟨-, htorn⟩⟩ | ⟨rfl, hdone⟩
    · exact .inl ⟨by simp [hmake₁, hmake₂], s₂.toBegun⟩
    · cases htorn with
      | write _ _ torn => exact .inl ⟨by simp [hmake₁, hmake₂], s₂.put_draft torn⟩
    · rw [s₂.perform_draft content] at hdone
      cases hdone
      exact .inl ⟨by simp [hmake₁, hmake₂, hdraft], s₂.put_draft content⟩
  · rcases h₄.of_runs (.step (s₂.perform_commit content)) (by simp)
      (by simp [commitStep, Step.whole_move]) with ⟨rfl, rfl⟩ | ⟨rfl, rfl⟩
    · exact .inl ⟨by simp [hmake₁, hmake₂, hdraft], s₂.put_draft content⟩
    · exact .inr ⟨by simp, s₂.committed hc⟩

end CommitBatch

end RecordStore.Repository
