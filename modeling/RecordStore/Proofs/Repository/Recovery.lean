import RecordStore.Proofs.Repository.Sequence

/-!
# RecordStore.Proofs.Repository.Recovery

Opening a repository with any number of batches.  The committed ones are replayed in the order of
their names and the others are dropped, so the records are the old ones with the changes of the
committed batches folded in, one batch after the other (`Recovered`).  A batch does not touch what
stands in the directory of another one, which carries the argument through the batches
(`recoverBatches_runs_fold`).  A repository that was opened has no batch left, and opening it once more
does nothing.
-/

namespace RecordStore

open Disk (Program)
open RecordName (Valid file)

/-- A manifest file that lists changes: it is read as the manifest of a batch of them. -/
def Manifest.Lists (content : Bytes) (changes : List Change) : Prop :=
  ∃ batch, Manifest.read content = .ok (Manifest.json batch changes)

namespace Repository

/-! ## One batch -/

/-- A committed batch that waits for its replay: a manifest lists its changes, whose data is staged, and
the records that they store have names that files can have. -/
structure Awaiting (batch : Text) (changes : List Change) (d : Disk) : Prop where
  manifest : ∃ content, d.node? (manifestPath batch) = some (.file content)
    ∧ Manifest.Lists content changes
  staged : ∀ i c data, changes[i]? = some c → c.data? = some data →
    d.node? (stagedPath batch i) = some (.file data)
  valid : ∀ c ∈ changes, Valid c.kind c.ident
  fits : ∀ c ∈ changes, c.Fits

section OneBatch

variable {batch : Text} {changes : List Change} {m : Contents} {d d' : Disk}

theorem Awaiting.directory (h : Awaiting batch changes d) (w : d.WellFormed) :
    d.node? (batchPath batch) = some .directory := by
  obtain ⟨content, hn, -⟩ := h.manifest
  have hdir := w.node?_dropLast hn
  rwa [manifestPath, List.dropLast_concat] at hdir

/-- What is in the directory of a batch decides whether the batch waits. -/
theorem Awaiting.congr (h : Awaiting batch changes d)
    (hsame : ∀ p, Disk.encloses (batchPath batch) p = true → d'.node? p = d.node? p) :
    Awaiting batch changes d' where
  manifest := by
    rw [manifestPath, hsame _ (Disk.encloses_append _ _)]
    exact h.manifest
  staged := by
    intro i c data hc hdata
    rw [stagedPath, hsame _ (Disk.encloses_append _ _)]
    exact h.staged i c data hc hdata
  valid := h.valid
  fits := h.fits

/-- A batch that waits is replayed, and its changes are folded into the records. -/
theorem recoverBatch_runs_fold (w : d.WellFormed) (r : Represents d m)
    (h : Awaiting batch changes d) :
    ∃ ss d', (recoverBatch batch).Runs d ss () d' ∧ Finished batch changes m d d' := by
  have hdir := h.directory w
  obtain ⟨content, hnode, shown, hread⟩ := h.manifest
  obtain ⟨next, hreplay, hnext⟩ := replay_eq_of_read hnode hread
  have hstocked : Stocked batch 0 changes d := ⟨hdir, by simpa using h.staged⟩
  obtain ⟨ss, d', hruns, hd'⟩ := finishBatch_runs w r h.valid h.fits hstocked
  refine ⟨ss, d', recoverBatch_runs_replay hdir hnode ?_, hd'⟩
  rw [hreplay]
  refine .looked ?_
  rw [hnext]
  exact hruns

/-- A batch without a manifest is dropped, and the records stay. -/
theorem recoverBatch_runs_drop (w : d.WellFormed) (r : Represents d m)
    (hdir : d.node? (batchPath batch) = some .directory) (hnone : d.node? (manifestPath batch) = none) :
    ∃ ss d', (recoverBatch batch).Runs d ss () d' ∧ Finished batch [] m d d' := by
  obtain ⟨next, heq, hnext⟩ := recoverBatch_eq batch
  obtain ⟨e, he⟩ := (hnext d).2.1 hdir hnone
  have hfolded : Folded batch 0 [] m d d := ⟨w, r, fun _ _ _ => rfl⟩
  refine ⟨[.removeTree (batchPath batch)], _, ?_, hfolded.finished⟩
  rw [heq]
  refine .looked ?_
  rw [he]
  exact .told e (.step (Disk.perform_removeTree d _))

end OneBatch

/-! ## Batch after batch -/

/-- The changes of the committed batches, in the order of the names. -/
def committedChanges (batches : Text → Option (List Change)) (names : List Text) : List Change :=
  names.flatMap fun name => (batches name).getD []

/-- What waits under names: the committed batches are given with their changes, and every other
directory has no manifest. -/
structure Inventory (batches : Text → Option (List Change)) (names : List Text) (d : Disk) : Prop where
  committed : ∀ name ∈ names, ∀ changes, batches name = some changes → Awaiting name changes d
  uncommitted : ∀ name ∈ names, batches name = none →
    d.node? (batchPath name) = some .directory → d.node? (manifestPath name) = none

/-- A disk on which the batches of names were finished or dropped. -/
structure Recovered (batches : Text → Option (List Change)) (names : List Text) (m : Contents)
    (d d' : Disk) : Prop where
  wellFormed : d'.WellFormed
  represents : Represents d' (appliedAll m (committedChanges batches names))
  noBatch : ∀ name ∈ names, d'.node? (batchPath name) ≠ some .directory
  other : ∀ p, (∀ name ∈ names, d.node? (batchPath name) = some .directory →
      Disk.encloses (batchPath name) p = false) →
    Apart (committedChanges batches names) p → d'.node? p = d.node? p

section ManyBatches

variable {batches : Text → Option (List Change)} {name : Text} {names : List Text} {m : Contents}
  {d d₁ d' : Disk}

theorem committedChanges_cons (batches : Text → Option (List Change)) (name : Text)
    (names : List Text) : committedChanges batches (name :: names)
      = (batches name).getD [] ++ committedChanges batches names := rfl

/-- Two batch directories have nothing in common. -/
theorem not_encloses_of_ne {name' : Text} {p : Path} (hne : name ≠ name')
    (h : Disk.encloses (batchPath name') p = true) : Disk.encloses (batchPath name) p = false := by
  obtain ⟨rest, rfl⟩ := Disk.encloses_iff.1 h
  simp [Disk.encloses, batchPath, Text.dropPrefix?, hne]

/-- What a batch leaves as it was: all that is in the directory of another one. -/
theorem Recovered.node?_of_encloses (h : Recovered batches [name] m d d₁) {name' : Text} {p : Path}
    (hne : name ≠ name') (hp : Disk.encloses (batchPath name') p = true) :
    d₁.node? p = d.node? p := by
  refine h.other p (fun n hn _ => ?_) (apart_of_encloses hp)
  obtain rfl := List.mem_singleton.1 hn
  exact not_encloses_of_ne hne hp

/-- A batch that is done is a step of the fold. -/
theorem Finished.recovered (h : Finished name ((batches name).getD []) m d d₁)
    (hdir : d.node? (batchPath name) = some .directory) : Recovered batches [name] m d d₁ := by
  have hchanges : committedChanges batches [name] = (batches name).getD [] := by
    simp [committedChanges]
  refine ⟨h.wellFormed, hchanges ▸ h.represents, ?_, fun p hp hrecord => ?_⟩
  · simp [h.inside _ (Disk.encloses_self _)]
  · exact h.other p (hp name List.mem_cons_self hdir) (hchanges ▸ hrecord)

/-- **One batch** is finished, dropped or, where the name is that of no directory, left alone. -/
theorem recoverBatch_runs_step (w : d.WellFormed) (r : Represents d m)
    (h : Inventory batches (name :: names) d) :
    ∃ ss d', (recoverBatch name).Runs d ss () d' ∧ Recovered batches [name] m d d' := by
  cases hbatch : batches name with
  | some changes =>
      have hwaits := h.committed name List.mem_cons_self changes hbatch
      obtain ⟨ss, d', hruns, hd'⟩ := recoverBatch_runs_fold w r hwaits
      refine ⟨ss, d', hruns, Finished.recovered ?_ (hwaits.directory w)⟩
      rwa [hbatch]
  | none =>
      by_cases hdir : d.node? (batchPath name) = some .directory
      · have hnone := h.uncommitted name List.mem_cons_self hbatch hdir
        obtain ⟨ss, d', hruns, hd'⟩ := recoverBatch_runs_drop w r hdir hnone
        refine ⟨ss, d', hruns, Finished.recovered ?_ hdir⟩
        rwa [hbatch]
      · refine ⟨[], d, recoverBatch_runs_skip hdir, w, ?_, by simpa using hdir, fun _ _ _ => rfl⟩
        simpa [committedChanges, hbatch, appliedAll] using r

/-- A batch that is done leaves the other ones as they are. -/
theorem Inventory.tail (h : Inventory batches (name :: names) d) (hname : name ∉ names)
    (hd₁ : Recovered batches [name] m d d₁) : Inventory batches names d₁ := by
  have hsame : ∀ n ∈ names, ∀ p, Disk.encloses (batchPath n) p = true → d₁.node? p = d.node? p :=
    fun n hn p hp => hd₁.node?_of_encloses (fun heq => hname (heq ▸ hn)) hp
  constructor
  · intro n hn changes hbatch
    exact (h.committed n (List.mem_cons_of_mem _ hn) changes hbatch).congr (hsame n hn)
  · intro n hn hbatch hdir
    rw [hsame n hn _ (Disk.encloses_self _)] at hdir
    rw [manifestPath, hsame n hn _ (Disk.encloses_append _ _)]
    exact h.uncommitted n (List.mem_cons_of_mem _ hn) hbatch hdir

theorem Recovered.cons (h : Recovered batches [name] m d d₁) (hname : name ∉ names)
    (h' : Recovered batches names (appliedAll m (committedChanges batches [name])) d₁ d') :
    Recovered batches (name :: names) m d d' := by
  have hchanges : committedChanges batches (name :: names)
      = committedChanges batches [name] ++ committedChanges batches names := by
    simp [committedChanges]
  have hsame : ∀ n ∈ names, d₁.node? (batchPath n) = d.node? (batchPath n) :=
    fun n hn => h.node?_of_encloses (fun heq => hname (heq ▸ hn)) (Disk.encloses_self _)
  refine ⟨h'.wellFormed, ?_, ?_, ?_⟩
  · rw [hchanges, appliedAll, List.foldl_append]
    exact h'.represents
  · intro n hn
    rcases List.mem_cons.1 hn with rfl | hn
    · rw [h'.other _ ?_ (apart_of_encloses (Disk.encloses_self _))]
      · exact h.noBatch n List.mem_cons_self
      · intro n' hn' _
        refine not_encloses_of_ne (fun heq => hname ?_) (Disk.encloses_self _)
        rwa [heq] at hn'
    · exact h'.noBatch n hn
  · intro p hp hrecord
    rw [hchanges, apart_append_iff] at hrecord
    rw [h'.other p ?_ hrecord.2, h.other p ?_ hrecord.1]
    · intro n hn
      exact hp n (List.mem_cons.2 (.inl (List.mem_singleton.1 hn)))
    · intro n hn hdir
      exact hp n (List.mem_cons_of_mem _ hn) (hsame n hn ▸ hdir)

/-- **Recovery in order.** The batches of names are finished and dropped one after the other. -/
theorem recoverBatches_runs_fold (w : d.WellFormed) (r : Represents d m) (hnames : names.Nodup)
    (h : Inventory batches names d) :
    ∃ ss d', (recoverBatches names).Runs d ss () d' ∧ Recovered batches names m d d' := by
  induction names generalizing d m with
  | nil => exact ⟨[], d, .done () d, w, r, by simp, fun _ _ _ => rfl⟩
  | cons name names ih =>
      obtain ⟨hname, hnames⟩ := List.nodup_cons.1 hnames
      obtain ⟨ss₁, d₁, hruns₁, h₁⟩ := recoverBatch_runs_step w r h
      obtain ⟨ss, d', hruns, h'⟩ := ih h₁.wellFormed h₁.represents hnames (h.tail hname h₁)
      exact ⟨ss₁ ++ ss, d', by rw [recoverBatches_cons]; exact hruns₁.andThen hruns, h₁.cons hname h'⟩

end ManyBatches

/-! ## Opening a repository -/

section Opening

variable {batches : Text → Option (List Change)} {names : List Text} {d d' : Disk} {m : Contents}

/-- The names in the directory of batches that are those of directories, in order. -/
theorem filter_names_eq (w : d.WellFormed)
    (hnames : names.Pairwise fun a b => a.ble b = true ∧ a ≠ b)
    (hdirs : ∀ name, name ∈ names ↔ d.node? (batchPath name) = some .directory) :
    (d.names pending).filter (· ∈ names) = names := by
  have hall : ∀ name ∈ names, name ∈ d.names pending :=
    fun name hname => Disk.mem_names_iff.2 ⟨_, (hdirs name).1 hname⟩
  have hsorted : (d.names pending).Pairwise fun a b => a.ble b = true :=
    List.pairwise_mergeSort Text.ble_trans Text.ble_total _
  have hnodup : names.Nodup := hnames.imp And.right
  have hperm : ((d.names pending).filter (· ∈ names)).Perm names := by
    refine (List.perm_ext_iff_of_nodup ((w.nodup_names _).filter _) hnodup).2 fun name => ?_
    simp only [List.mem_filter, decide_eq_true_eq]
    exact ⟨And.right, fun hname => ⟨hall name hname, hname⟩⟩
  exact hperm.eq_of_pairwise (fun _ _ _ _ => Text.ble_antisymm) (hsorted.filter _)
    (hnames.imp And.left)

/-- Names without a committed batch add no changes. -/
theorem committedChanges_filter {all : List Text} (hnone : ∀ name, name ∉ names → batches name = none) :
    committedChanges batches (all.filter (· ∈ names)) = committedChanges batches all := by
  induction all with
  | nil => rfl
  | cons name all ih =>
      rw [committedChanges_cons, List.filter_cons]
      split
      · rw [committedChanges_cons, ih]
      · next hname =>
        rw [hnone name (by simpa using hname), ih]
        rfl

/-- The batches of a repository: some directories hold a committed batch, and the others have no
manifest.  The names of the directories are given in their order. -/
structure Batches (batches : Text → Option (List Change)) (names : List Text) (d : Disk) : Prop where
  sorted : names.Pairwise fun a b => a.ble b = true ∧ a ≠ b
  mem_iff : ∀ name, name ∈ names ↔ d.node? (batchPath name) = some .directory
  committed : ∀ name changes, batches name = some changes → Awaiting name changes d
  uncommitted : ∀ name ∈ names, batches name = none → d.node? (manifestPath name) = none

namespace Batches

theorem inventory (h : Batches batches names d) (all : List Text) : Inventory batches all d where
  committed := fun name _ => h.committed name
  uncommitted := fun name _ hbatch hdir => h.uncommitted name ((h.mem_iff name).2 hdir) hbatch

/-- Where there is no directory, there is no committed batch. -/
theorem eq_none (h : Batches batches names d) (w : d.WellFormed) {name : Text} (hname : name ∉ names) :
    batches name = none := by
  by_contra hbatch
  obtain ⟨changes, hchanges⟩ := Option.ne_none_iff_exists'.1 hbatch
  exact hname ((h.mem_iff name).2 ((h.committed name changes hchanges).directory w))

/-- A repository is opened: its batches are finished and dropped in the order of their names. -/
theorem recoverProgram_runs (h : Batches batches names d) (w : d.WellFormed) (r : Represents d m) :
    ∃ ss d', recoverProgram.Runs d ss () d' ∧ Recovered batches names m d d' := by
  by_cases hpending : d.node? pending = some .directory
  · obtain ⟨next, heq, hnext⟩ := recoverProgram_eq
    obtain ⟨ss, d', hruns, hd'⟩ :=
      recoverBatches_runs_fold w r (w.nodup_names pending) (h.inventory (d.names pending))
    have hchanges : committedChanges batches (d.names pending) = committedChanges batches names := by
      rw [← committedChanges_filter fun name hname => h.eq_none w hname,
        filter_names_eq w h.sorted h.mem_iff]
    have hall : ∀ name ∈ names, name ∈ d.names pending :=
      fun name hname => Disk.mem_names_iff.2 ⟨_, (h.mem_iff name).1 hname⟩
    refine ⟨ss, d', ?_, hd'.wellFormed, hchanges ▸ hd'.represents,
      fun name hname => hd'.noBatch name (hall name hname), fun p hp hrecord => ?_⟩
    · rw [heq]
      refine .looked ?_
      rw [hnext, if_pos (Disk.isDirectory_iff.2 hpending)]
      exact hruns
    · exact hd'.other p (fun name _ hdir => hp name ((h.mem_iff name).2 hdir) hdir)
        (hchanges ▸ hrecord)
  · have hno : ∀ name, d.node? (batchPath name) ≠ some .directory :=
      fun name hdir => hpending (w.node?_dropLast hdir)
    have hnil : names = [] :=
      List.eq_nil_iff_forall_not_mem.2 fun name hname => hno name ((h.mem_iff name).1 hname)
    subst hnil
    exact ⟨[], d, recoverProgram_runs_skip hno, w, r, by simp, fun _ _ _ => rfl⟩

end Batches

/-- **Recovery.** A repository with any number of batches is opened: the records are the old ones with
the changes of the committed batches folded in, in the order of the names of the batches; the other
batches leave nothing.  No batch is left, no other file was touched, and opening the repository once
more does nothing. -/
theorem recover_folds_committed (w : d.WellFormed) (t : Tidy d) (h : Batches batches names d) :
    let opened := Procedure.run recover d
    let whole := appliedAll (record? d) (committedChanges batches names)
    opened.result = .ok ()
      ∧ Represents opened.state whole
      ∧ ReadsAs opened.state whole
      ∧ Tidy opened.state
      ∧ (∀ name, opened.state.node? (batchPath name) ≠ some .directory)
      ∧ (∀ p, (∀ name ∈ names, Disk.encloses (batchPath name) p = false) →
        Apart (committedChanges batches names) p → opened.state.node? p = d.node? p)
      ∧ (Procedure.run recover opened.state).result = .ok ()
      ∧ (Procedure.run recover opened.state).state = opened.state := by
  intro opened whole
  obtain ⟨ss, d', hruns, hd'⟩ := h.recoverProgram_runs w t.represents
  have hresult : opened.result = .ok () := hruns.result_eq
  have hstate : opened.state = d' := hruns.state_eq
  have hno : ∀ name, d'.node? (batchPath name) ≠ some .directory := by
    intro name
    by_cases hname : name ∈ names
    · exact hd'.noBatch name hname
    · rw [hd'.other _ ?_ (apart_of_encloses (Disk.encloses_self _)), ne_eq, ← h.mem_iff]
      · exact hname
      · intro n hn _
        refine not_encloses_of_ne (fun heq => hname ?_) (Disk.encloses_self _)
        rwa [heq] at hn
  have hagain : recoverProgram.Runs d' [] () d' := recoverProgram_runs_skip hno
  rw [hstate]
  exact ⟨hresult, hd'.represents, hd'.represents.readsAs hd'.wellFormed, hd'.represents.tidy, hno,
    fun p hp => hd'.other p fun name hname _ => hp name hname, hagain.result_eq, hagain.state_eq⟩

/-- The manifest file that is written for changes. -/
def manifestFile (batch : Text) (changes : List Change) : Node :=
  .file ((Manifest.encode batch changes).toOption.getD [])

/-- Two committed batches that store one record under different kinds, with the bytes of what they
store. -/
def twoBatches (name : Text) : Option (List Change) :=
  if name = "1" then some [.update "task" "a" [2], .create "simple" "b" [3]]
  else if name = "3" then some [.delete "simple" "b", .create "page" "a" [4]]
  else none

/-- A repository with one record, two committed batches, and between them one that was not committed. -/
def threeBatches : Disk where
  nodes := [([file "simple" "a"], .file [1]), ([".pending"], .directory),
    ([".pending", "1"], .directory), ([".pending", "1", "000000.json"], .file [2]),
    ([".pending", "1", "000001.json"], .file [3]),
    ([".pending", "1", "manifest.json"], manifestFile "1" ((twoBatches "1").getD [])),
    ([".pending", "2"], .directory), ([".pending", "2", "000000.json"], .file [9]),
    ([".pending", "3"], .directory), ([".pending", "3", "000001.json"], .file [4]),
    ([".pending", "3", "manifest.json"], manifestFile "3" ((twoBatches "3").getD []))]

/-- A manifest file that was written for changes lists them. -/
theorem exists_lists_of_manifestFile {batch : Text} {changes : List Change} (hb : Json.Unpaired batch)
    (h : ∀ c ∈ changes, c.Unpaired)
    (hnode : d.node? (manifestPath batch) = some (manifestFile batch changes)) :
    ∃ content, d.node? (manifestPath batch) = some (.file content)
      ∧ Manifest.Lists content changes := by
  obtain ⟨content, hencode, hread⟩ := Manifest.read_encode hb h
  refine ⟨content, ?_, batch, hread⟩
  rw [hnode, manifestFile, hencode]
  rfl

theorem batches_threeBatches : Batches twoBatches ["1", "2", "3"] threeBatches where
  sorted := by decide
  mem_iff := by
    intro name
    by_cases h1 : name = "1"
    · subst h1; exact ⟨fun _ => rfl, fun _ => by decide⟩
    by_cases h2 : name = "2"
    · subst h2; exact ⟨fun _ => rfl, fun _ => by decide⟩
    by_cases h3 : name = "3"
    · subst h3; exact ⟨fun _ => rfl, fun _ => by decide⟩
    have hnode : threeBatches.node? (batchPath name) = none := by
      simp [threeBatches, Disk.node?, batchPath, List.lookup_cons, beq_eq_false_iff_ne.2 h1,
        beq_eq_false_iff_ne.2 h2, beq_eq_false_iff_ne.2 h3]
    simp [h1, h2, h3, hnode]
  committed := by
    intro name changes h
    rw [twoBatches] at h
    split at h
    · next hname =>
      subst hname
      cases h
      refine ⟨exists_lists_of_manifestFile (by decide) (by decide) rfl, ?_, by decide,
        by decide +kernel⟩
      rintro (_ | _ | i) c data hc hdata <;> cases hc <;> cases hdata <;> rfl
    split at h
    · next hname =>
      subst hname
      cases h
      refine ⟨exists_lists_of_manifestFile (by decide) (by decide) rfl, ?_, by decide,
        by decide +kernel⟩
      rintro (_ | _ | i) c data hc hdata <;> cases hc <;> cases hdata
      rfl
    · cases h
  uncommitted := by decide

/-- The batches count in their order, and the one without a manifest does not. -/
theorem recover_folds_committed_two :
    let opened := Procedure.run recover threeBatches
    opened.result = .ok () ∧ record? opened.state "a" = some (("page" : Text), [4])
      ∧ record? opened.state "b" = none
      ∧ (Procedure.run recover opened.state).state = opened.state := by
  have w : threeBatches.WellFormed := ⟨by decide, by decide, by
    simp only [threeBatches, List.forall_mem_cons]
    exact ⟨rfl, rfl, rfl, rfl, rfl, rfl, rfl, rfl, rfl, rfl, rfl, nofun⟩⟩
  have r : Represents threeBatches _ := represents_oneRecord.congr fun {k i} hv => by
    have hpending : (file k i == (".pending" : Text)) = false :=
      beq_eq_false_iff_ne.2 (file_ne_pendingName hv)
    simp [threeBatches, oneRecord, Disk.node?, Disk.put, List.lookup_cons, hpending]
  obtain ⟨hresult, hrep, -, -, -, -, -, hagain⟩ :=
    recover_folds_committed w r.tidy batches_threeBatches
  refine ⟨hresult, ?_, ?_, hagain⟩
  · rw [hrep.record?_eq]; rfl
  · rw [hrep.record?_eq]; rfl

/-- A committed batch that stores a record below a directory that is not there. -/
def slashedBatch : Disk where
  nodes := [([".pending"], .directory), ([".pending", "1"], .directory),
    ([".pending", "1", "000000.json"], .file [1]),
    ([".pending", "1", "manifest.json"], manifestFile "1" slashed)]

/-- Such a batch is not finished: its data is staged, but opening fails and the batch stays. -/
theorem recover_folds_committed_slashed :
    slashedBatch.WellFormed ∧ Tidy slashedBatch
      ∧ (∃ content, slashedBatch.node? (manifestPath "1") = some (.file content)
        ∧ Manifest.Lists content slashed)
      ∧ slashedBatch.node? (stagedPath "1" 0) = some (.file [1])
      ∧ (∀ c ∈ slashed, Valid c.kind c.ident)
      ∧ let opened := Procedure.run recover slashedBatch
        opened.result = .error (.storage .missing)
          ∧ opened.state.node? (batchPath "1") = some .directory := by
  have w : slashedBatch.WellFormed := ⟨by decide, by decide, by
    simp only [slashedBatch, List.forall_mem_cons]
    exact ⟨rfl, rfl, rfl, rfl, nofun⟩⟩
  have r : Represents slashedBatch fun _ => none := represents_empty.congr fun {k i} hv => by
    have hpending : (file k i == (".pending" : Text)) = false :=
      beq_eq_false_iff_ne.2 (file_ne_pendingName hv)
    simp [slashedBatch, Disk.node?, List.lookup_cons, hpending]
  have honly : ∀ name, slashedBatch.node? (batchPath name) = some .directory → name = "1" := by
    intro name hdir
    by_contra hne
    simp [slashedBatch, Disk.node?, batchPath, List.lookup_cons, beq_eq_false_iff_ne.2 hne] at hdir
  have hmanifest : slashedBatch.node? (manifestPath "1") = some (manifestFile "1" slashed) := rfl
  obtain ⟨content, hnode, shown, hread⟩ :=
    exists_lists_of_manifestFile (by decide) properChanges_slashed.unpaired hmanifest
  have hbarred : Barred "1" (.create "simple" "a/b" [1]) (.storage .missing) slashedBatch :=
    ⟨rfl, ⟨content, shown, [], hnode, hread⟩, ⟨[1], rfl, rfl⟩, recordPlace_slashed rfl⟩
  obtain ⟨hresult, hstate⟩ := hbarred.recover_yields w honly
  exact ⟨w, r.tidy, ⟨content, hnode, shown, hread⟩, rfl, properChanges_slashed.valid, hresult,
    by rw [hstate]; rfl⟩

end Opening

end Repository

end RecordStore
