import RecordStore.Proofs.Repository.Refusal

/-!
# RecordStore.Proofs.Repository.Sequence

Batches in which an identifier may stand more than once.  Each change of a replay looks for the record
of its identifier anew, so it sees what the changes before it have left, and the records after the
batch are the old ones with the changes folded in, in order (`appliedAll`).  One change is one step of
that fold (`replayProgram_runs_step`), and a replay is the fold (`replayChanges_runs_sequence`).

What the functions that read a repository give is said once, for the map that its record files
represent (`ReadsAs`).
-/

namespace RecordStore.Repository

open Disk (Program)
open RecordName (Valid file)

/-! ## Reading a map -/

/-- The functions that read a repository give what a map says: the bytes of each record, the place of
its file, and the entries in the order of the names of their files. -/
structure ReadsAs (d : Disk) (m : Contents) : Prop where
  read : ∀ ident, read ident d = .ok ((m ident).map Prod.snd)
  exists? : ∀ ident, exists? ident d = (m ident).isSome
  find? : ∀ ident, find? ident d = (m ident).map fun v => ⟨v.1, ident, file v.1 ident⟩
  mem_entries : ∀ kind? kind ident, (kind, ident) ∈ entries kind? d ↔
    (∃ bytes, m ident = some (kind, bytes)) ∧ ∀ k ∈ kind?, k = kind
  entries_nodup : ∀ kind?, ((entries kind? d).map Prod.snd).Nodup
  entries_sorted : ∀ kind?, (entries kind? d).Pairwise fun e e' =>
    (file e.1 e.2).ble (file e'.1 e'.2) = true

section Reading

variable {d : Disk} {m : Contents}

theorem Represents.mem_recordFiles_iff (r : Represents d m) {f : RecordFile} :
    f ∈ recordFiles d ↔ (∃ bytes, m f.ident = some (f.kind, bytes)) ∧ f.name = file f.kind f.ident := by
  rw [Repository.mem_recordFiles_iff]
  constructor
  · rintro ⟨hv, hname, n, hn⟩
    rw [hname] at hn
    cases n with
    | directory => exact absurd hn (r.noDirectory hv)
    | file bytes => exact ⟨⟨bytes, r.eq_some_iff.2 ⟨hv, hn⟩⟩, hname⟩
  · rintro ⟨⟨bytes, hm⟩, hname⟩
    obtain ⟨hv, hn⟩ := r.eq_some_iff.1 hm
    exact ⟨hv, hname, _, by rw [hname, hn]⟩

/-- An identifier has one record file at most. -/
theorem Represents.nodup_idents (w : d.WellFormed) (r : Represents d m) :
    ((recordFiles d).map RecordFile.ident).Nodup := by
  have hnames : (recordFiles d).Pairwise fun f g => f.name ≠ g.name := by
    refine List.Pairwise.filterMap _ (fun a b hab f hf g hg => ?_) (w.nodup_names [])
    rwa [(recordFile?_eq_some_iff.1 hf).2.2, (recordFile?_eq_some_iff.1 hg).2.2]
  refine List.pairwise_map.2 (hnames.imp_of_mem fun {f g} hf hg hne hident => hne ?_)
  obtain ⟨⟨b, hb⟩, hf'⟩ := r.mem_recordFiles_iff.1 hf
  obtain ⟨⟨b', hb'⟩, hg'⟩ := r.mem_recordFiles_iff.1 hg
  rw [hident, hb'] at hb
  have hkind : f.kind = g.kind := (congrArg Prod.fst (Option.some.inj hb)).symm
  rw [hf', hg', hkind, hident]

/-- **Reading.** A repository whose record files are those of a map is read as that map. -/
theorem Represents.readsAs (w : d.WellFormed) (r : Represents d m) : ReadsAs d m where
  read := r.read_eq
  exists? := fun _ => r.exists?_eq
  find? := by
    intro ident
    cases hm : m ident with
    | none => exact r.find?_eq_none hm
    | some v => exact r.find?_eq_some hm
  mem_entries := by
    intro kind? kind ident
    simp only [entries, List.mem_map, List.mem_filter, r.mem_recordFiles_iff, Prod.mk.injEq,
      Option.all_eq_true, beq_iff_eq]
    constructor
    · rintro ⟨f, ⟨⟨hm, -⟩, hkind⟩, rfl, rfl⟩
      exact ⟨hm, hkind⟩
    · rintro ⟨hm, hkind⟩
      exact ⟨⟨kind, ident, file kind ident⟩, ⟨⟨hm, rfl⟩, hkind⟩, rfl, rfl⟩
  entries_nodup := by
    intro kind?
    rw [entries, List.map_map]
    exact (r.nodup_idents w).sublist (List.filter_sublist.map _)
  entries_sorted := by
    intro kind?
    have hname : ∀ f ∈ recordFiles d, f.name = file f.kind f.ident :=
      fun f hf => (r.mem_recordFiles_iff.1 hf).2
    rw [entries, List.pairwise_map]
    refine (pairwise_recordFiles d).filter _ |>.imp_of_mem fun hf hg hle => ?_
    rwa [hname _ (List.mem_of_mem_filter hf), hname _ (List.mem_of_mem_filter hg)] at hle

end Reading

/-! ## One change after the other -/

/-- A place that is no record file of the identifiers of changes. -/
def Apart (cs : List Change) (p : Path) : Prop :=
  ∀ c ∈ cs, ∀ k, Valid k c.ident → p ≠ [file k c.ident]

theorem apart_cons_iff {c : Change} {cs : List Change} {p : Path} :
    Apart (c :: cs) p ↔ Apart [c] p ∧ Apart cs p := by
  simp [Apart, or_imp, forall_and]

theorem apart_append_iff {cs₁ cs₂ : List Change} {p : Path} :
    Apart (cs₁ ++ cs₂) p ↔ Apart cs₁ p ∧ Apart cs₂ p := by
  simp [Apart, or_imp, forall_and]

/-- What is in the directory of a batch is no record file. -/
theorem apart_of_encloses {cs : List Change} {batch : Text} {p : Path}
    (h : Disk.encloses (batchPath batch) p = true) : Apart cs p := by
  obtain ⟨rest, rfl⟩ := Disk.encloses_iff.1 h
  exact fun _ _ _ _ => by simp [batchPath]

/-- A batch directory in which the data of changes, numbered from `n` on, is staged.  What else stands
there does not matter. -/
structure Stocked (batch : Text) (n : Nat) (cs : List Change) (d : Disk) : Prop where
  directory : d.node? (batchPath batch) = some .directory
  staged : ∀ i c data, cs[i]? = some c → c.data? = some data →
    d.node? (stagedPath batch (n + i)) = some (.file data)

/-- A disk on which changes of a batch, numbered from `n` on, were folded into the records of a map. -/
structure Folded (batch : Text) (n : Nat) (cs : List Change) (m : Contents) (d d' : Disk) : Prop where
  wellFormed : d'.WellFormed
  represents : Represents d' (appliedAll m cs)
  other : ∀ p, (∀ i < cs.length, p ≠ stagedPath batch (n + i)) → Apart cs p → d'.node? p = d.node? p

section Folding

variable {batch : Text} {n : Nat} {c : Change} {cs : List Change} {m : Contents} {d d₁ d' : Disk}

theorem Folded.cons (h : Folded batch n [c] m d d₁) (h' : Folded batch (n + 1) cs (applied m c) d₁ d') :
    Folded batch n (c :: cs) m d d' where
  wellFormed := h'.wellFormed
  represents := h'.represents
  other := by
    intro p hp hrecord
    obtain ⟨hhead, htail⟩ := apart_cons_iff.1 hrecord
    rw [h'.other p ?_ htail, h.other p ?_ hhead]
    · intro i hi
      obtain rfl : i = 0 := by simpa using hi
      exact hp 0 (by simp)
    · intro i hi heq
      refine hp (i + 1) (by simpa using hi) ?_
      rw [heq]
      congr 1
      omega

/-- A change leaves what is staged for the later ones. -/
theorem Stocked.tail (s : Stocked batch n (c :: cs) d) (h : Folded batch n [c] m d d₁) :
    Stocked batch (n + 1) cs d₁ where
  directory := by
    rw [h.other _ ?_ (apart_of_encloses (Disk.encloses_self _)), s.directory]
    exact fun i _ => by simp [stagedPath]
  staged := by
    intro i c' data hc' hdata
    have hindex : n + 1 + i = n + (i + 1) := by omega
    rw [hindex, h.other (stagedPath batch (n + (i + 1))) ?_ (apart_of_encloses (Disk.encloses_append _ _))]
    · exact s.staged (i + 1) c' data hc' hdata
    · intro j hj heq
      have := stagedPath_inj heq
      simp only [List.length_singleton, Nat.lt_one_iff] at hj
      omega

/-- A change that stores a record puts the staged file in the place of the record's. -/
theorem replayProgram_runs_storing (w : d.WellFormed) (r : Represents d m) (hv : Valid c.kind c.ident)
    (hfits : c.Fits) (s : Stocked batch n (c :: cs) d) {data : Bytes} (hdata : c.data? = some data) :
    ∃ ss d', (replayProgram batch n c).Runs d ss () d' ∧ Folded batch n [c] m d d' := by
  have hstaged : d.node? (stagedPath batch n) = c.data?.map .file := by
    rw [hdata]; exact s.staged 0 c data rfl hdata
  have ho : Offered c (d.node? (stagedPath batch n)) := .inr hstaged
  have hclear := clear_of_noDirectory r.noDirectory hv hfits (d.node? (stagedPath batch n))
  refine ⟨_, _, replayProgram_runs_carried s.directory hv ho hclear,
    wellFormed_carried w ho hclear, r.carried hv hstaged, fun p hp hrecord => ?_⟩
  exact node?_carried_other ho hv (hp 0 (by simp)) (hrecord c List.mem_cons_self)

/-- The record file that a change finds outdated is one of its identifier, and no directory. -/
theorem file_of_outdated? (r : Represents d m) {f : RecordFile} (hf : outdated? c d = some f) :
    Valid f.kind c.ident ∧ f.name = file f.kind c.ident
      ∧ ∃ bytes, d.node? [f.name] = some (.file bytes) := by
  obtain ⟨hk, hname, -, x, hx⟩ := exists_of_find? (find?_of_outdated? hf).1
  cases x with
  | file bytes => exact ⟨hk, hname, bytes, hx⟩
  | directory => exact absurd (hname ▸ hx) (r.noDirectory hk)

/-- Taking away what is outdated leaves all places but the record files of the identifier. -/
theorem node?_discarded_apart (r : Represents d m) {p : Path}
    (hp : ∀ k, Valid k c.ident → p ≠ [file k c.ident]) :
    (discarded (outdated? c d) d).node? p = d.node? p := by
  rw [node?_discarded, if_neg]
  intro hout
  obtain ⟨f, hf, rfl⟩ := Option.map_eq_some_iff.1 hout
  obtain ⟨hk, hname, -⟩ := file_of_outdated? r hf
  exact hp _ hk (by rw [hname])

/-- Taking away what is outdated is all that a deletion does to the records. -/
theorem Represents.discarded (r : Represents d m) (hv : Valid c.kind c.ident) (hdata : c.data? = none) :
    Represents (discarded (outdated? c d) d) (applied m c) := by
  have hrecord : ∀ {k}, Valid k c.ident →
      (Repository.discarded (outdated? c d) d).node? [file k c.ident] = recordNode c.stored k := by
    intro k hk
    have hleaves := leaves_eq_stored (d := d) hv (fun _ hk => r.node?_file hk) hk
    rw [← hleaves, node?_discarded, leaves, hdata]
    have hiff : (outdated? c d).map (fun f => [f.name]) = some [file k c.ident]
        ↔ (outdated? c d).map RecordFile.name = some (file k c.ident) := by
      cases outdated? c d <;> simp
    simp only [hiff, Option.map_none, Option.none_or, ite_self]
  refine r.update (fun hk hi => ?_) hrecord fun v hstored => ?_
  · exact node?_discarded_apart r fun k' hk' => singleton_file_ne hk hk' (.inl hi)
  · rw [Change.stored, hdata] at hstored
    cases hstored

/-- A change that deletes a record takes its file away.  A file that has the name of a staged one is
not looked at. -/
theorem replayProgram_runs_deleting (w : d.WellFormed) (r : Represents d m) (hv : Valid c.kind c.ident)
    (hdata : c.data? = none) :
    ∃ ss d', (replayProgram batch n c).Runs d ss () d' ∧ Folded batch n [c] m d d' := by
  have hfits : c.Fits := fun h => absurd hdata h
  refine ⟨discardSteps (outdated? c d), discarded (outdated? c d) d, ?_, ?_, r.discarded hv hdata,
    fun p _ hp => node?_discarded_apart r (hp c List.mem_cons_self)⟩
  · rw [replayProgram_eq_of_fits hfits, placing, hdata]
    exact .looked (dropFile_runs fun f hf => (file_of_outdated? r hf).2.2)
  · cases hout : outdated? c d with
    | none => exact w
    | some f => exact w.erase_file ((clear_of_noDirectory r.noDirectory hv hfits none).outdated f hout)

/-- **One change** is one step of the fold, whatever the changes before it have left. -/
theorem replayProgram_runs_step (w : d.WellFormed) (r : Represents d m) (hv : Valid c.kind c.ident)
    (hfits : c.Fits) (s : Stocked batch n (c :: cs) d) :
    ∃ ss d', (replayProgram batch n c).Runs d ss () d' ∧ Folded batch n [c] m d d' := by
  cases hdata : c.data? with
  | some data => exact replayProgram_runs_storing w r hv hfits s hdata
  | none => exact replayProgram_runs_deleting w r hv hdata

/-- **Replay in sequence.** The changes of a batch are folded into the records, in their order. -/
theorem replayChanges_runs_sequence (w : d.WellFormed) (r : Represents d m)
    (hvalid : ∀ c ∈ cs, Valid c.kind c.ident) (hfits : ∀ c ∈ cs, c.Fits)
    (s : Stocked batch n cs d) : ∃ ss d', (replayChanges (batchPath batch) (Manifest.changesJson n cs)).Runs
      d ss () d' ∧ Folded batch n cs m d d' := by
  induction cs generalizing n d m with
  | nil => exact ⟨[], d, .done () d, w, r, fun _ _ _ => rfl⟩
  | cons c cs ih =>
      obtain ⟨ss₁, d₁, hruns₁, h₁⟩ := replayProgram_runs_step w r (hvalid c List.mem_cons_self)
        (hfits c List.mem_cons_self) s
      obtain ⟨ss, d', hruns, h⟩ := ih h₁.wellFormed h₁.represents
        (fun c' hc' => hvalid c' (List.mem_cons_of_mem c hc'))
        (fun c' hc' => hfits c' (List.mem_cons_of_mem c hc')) (s.tail h₁)
      exact ⟨ss₁ ++ ss, d', by rw [Replaying.replayChanges_cons]; exact hruns₁.andThen hruns,
        h₁.cons h⟩

end Folding

/-! ## A whole batch -/

/-- A disk on which a batch is done and its directory is gone. -/
structure Finished (batch : Text) (cs : List Change) (m : Contents) (d d' : Disk) : Prop where
  wellFormed : d'.WellFormed
  represents : Represents d' (appliedAll m cs)
  inside : ∀ p, Disk.encloses (batchPath batch) p = true → d'.node? p = none
  other : ∀ p, Disk.encloses (batchPath batch) p = false → Apart cs p → d'.node? p = d.node? p

section Whole

variable {batch : Text} {cs : List Change} {m : Contents} {d d' : Disk}

/-- The directory of a batch goes, and the records stay. -/
theorem Folded.finished (h : Folded batch 0 cs m d d') :
    Finished batch cs m d (d'.eraseTree (batchPath batch)) := by
  have herase := Disk.node?_eraseTree (p := batchPath batch) (by simp [batchPath]) d'
  refine ⟨h.wellFormed.eraseTree _, ?_, fun p hp => by rw [herase, if_pos hp], fun p hp hrecord => ?_⟩
  · refine h.represents.congr fun _ => ?_
    rw [herase, if_neg]
    simp [Disk.encloses, batchPath, Text.dropPrefix?]
  · rw [herase, if_neg (by simp [hp]), h.other p ?_ hrecord]
    rintro i - rfl
    rw [stagedPath, Disk.encloses_append] at hp
    cases hp

/-- A batch whose data is staged is done, and its directory is taken away. -/
theorem finishBatch_runs (w : d.WellFormed) (r : Represents d m)
    (hvalid : ∀ c ∈ cs, Valid c.kind c.ident) (hfits : ∀ c ∈ cs, c.Fits)
    (s : Stocked batch 0 cs d) :
    ∃ ss d', (finishBatch batch cs).Runs d ss () d' ∧ Finished batch cs m d d' := by
  obtain ⟨ss, d', hruns, h⟩ := replayChanges_runs_sequence w r hvalid hfits s
  exact ⟨ss ++ [.removeTree (batchPath batch)], _,
    hruns.andThen (.step (Disk.perform_removeTree d' _)), h.finished⟩

/-- A committed batch has the data of all its changes staged. -/
theorem Committed.stocked (h : Committed batch cs d d') : Stocked batch 0 cs d' where
  directory := h.directory
  staged := by
    intro i c data hc hdata
    rw [Nat.zero_add, h.staged i c hc, hdata]
    rfl

end Whole

section Apply

variable {batch : Text} {changes : List Change} {d : Disk}

/-- A batch whose name is free is folded into the records. -/
theorem applyProgram_runs_sequence {m : Contents} (w : d.WellFormed) (r : Represents d m)
    (hb : Json.Unpaired batch) (hvalid : ∀ c ∈ changes, Valid c.kind c.ident)
    (hunpaired : ∀ c ∈ changes, c.Unpaired) (hfits : ∀ c ∈ changes, c.Fits)
    (hfree : ¬ Taken batch d) :
    ∃ ss d', (applyProgram batch changes).Runs d ss batch d' ∧ d'.WellFormed
      ∧ Represents d' (appliedAll m changes)
      ∧ ∀ p, p ≠ pending → Apart changes p → d'.node? p = d.node? p := by
  obtain ⟨content, hencode, -⟩ := Manifest.read_encode hb hunpaired
  obtain ⟨e, heq⟩ := applyProgram_eq hencode
  obtain ⟨ss, d₁, hruns, -, h⟩ := commitBatch_runs w hfree hencode
  have r₁ : Represents d₁ m := r.congr fun hk =>
    h.other _ (by simpa [pending] using file_ne_pendingName hk)
      (by simp [Disk.encloses, batchPath, Text.dropPrefix?])
  obtain ⟨content', hnode, hencode'⟩ := h.manifest
  obtain ⟨next, hreplay, hnext⟩ := replay_eq hnode hencode' hb hunpaired
  obtain ⟨ss', d', hfinish, h'⟩ := finishBatch_runs h.wellFormed r₁ hvalid hfits h.stocked
  have hruns' : (replay (batchPath batch)).Runs d₁ ss' () d' := by
    rw [hreplay]
    refine .looked ?_
    rw [hnext]
    exact hfinish
  have happly : (applyProgram batch changes).Runs d (ss ++ (ss' ++ [])) batch d' := by
    rw [heq]
    exact hruns.andThen (.told e (hruns'.andThen (.done batch d')))
  refine ⟨_, d', happly, h'.wellFormed, h'.represents, fun p hp hrecord => ?_⟩
  cases hin : Disk.encloses (batchPath batch) p with
  | false => rw [h'.other p hin hrecord, h.other p hp hin]
  | true =>
      -- Nothing stood at the name of the batch before, nor below it.
      rw [h'.inside p hin]
      obtain ⟨rest, rfl⟩ := Disk.encloses_iff.1 hin
      have hnone : d.node? (batchPath batch) = none :=
        Option.eq_none_iff_forall_not_mem.2 fun n hn => hfree (.inr ⟨n, hn⟩)
      cases rest with
      | nil => rw [List.append_nil, hnone]
      | cons name rest =>
          exact (w.node?_append_eq_none (by rw [hnone]; simp) _ (by simp)).symm

/-- **A batch is a fold.** A batch whose name is taken is refused and changes nothing.  Any other one
is put in place: the records are the old ones with the changes folded in, in order, though an identifier
may stand in several of them, with several kinds; all that reads the repository agrees with that map,
each identifier has one file at most, no batch is left, and no other file was touched. -/
theorem apply_folds_changes {name : List Char} (w : d.WellFormed) (t : Tidy d)
    (hnone : ∀ batch, d.node? (batchPath batch) ≠ some .directory)
    (hvalid : ∀ c ∈ changes, Valid c.kind c.ident) (hunpaired : ∀ c ∈ changes, c.Unpaired)
    (hfits : ∀ c ∈ changes, c.Fits) :
    let whole := Procedure.run (apply (Text.ofChars name) changes) d
    (Taken (Text.ofChars name) d → (∃ e, whole.result = .error e) ∧ whole.state = d) ∧
    (¬ Taken (Text.ofChars name) d →
      whole.result = .ok (Text.ofChars name)
        ∧ Represents whole.state (appliedAll (record? d) changes)
        ∧ ReadsAs whole.state (appliedAll (record? d) changes)
        ∧ Tidy whole.state
        ∧ (∀ batch, whole.state.node? (batchPath batch) ≠ some .directory)
        ∧ ∀ p, p ≠ pending → Apart changes p → whole.state.node? p = d.node? p) := by
  intro whole
  have hb : Json.Unpaired (Text.ofChars name) := Json.unpaired_ofChars name
  constructor
  · intro htaken
    obtain ⟨content, hencode, -⟩ := Manifest.read_encode hb hunpaired
    obtain ⟨e, heq⟩ := applyProgram_eq hencode
    obtain ⟨f, hf⟩ : ∃ f, (commitBatch (Text.ofChars name) changes content).run.Yields d (.error f) d :=
      (commitBatch_refused w htaken).2
    have hrefused : (apply (Text.ofChars name) changes).Yields d (.error f) d := by
      rw [apply, heq, Program.run_bind]
      exact hf.bind_error
    exact ⟨⟨f, hrefused.1⟩, hrefused.2⟩
  · intro hfree
    obtain ⟨ss, d', hruns, w', r, hother⟩ :=
      applyProgram_runs_sequence w t.represents hb hvalid hunpaired hfits hfree
    have hstate : whole.state = d' := hruns.state_eq
    have hresult : whole.result = .ok (Text.ofChars name) := hruns.result_eq
    rw [hstate]
    refine ⟨hresult, r, r.readsAs w', r.tidy, fun batch hdir => ?_, hother⟩
    rw [hother _ (by simp [batchPath, pending]) (apart_of_encloses (Disk.encloses_self _))] at hdir
    exact hnone batch hdir

/-- A batch that stores one record twice, under two new kinds, and deletes another one by a kind that
it never had. -/
def repeatedChanges : List Change :=
  [.update "task" "a" [2], .create "simple" "b" [3], .delete "page" "c", .create "page" "a" [4],
    .delete "task" "b"]

/-- The last change of each identifier counts. -/
theorem apply_folds_changes_repeated :
    let whole := Procedure.run (apply (Text.ofChars ['1']) repeatedChanges) oneRecord
    whole.result = .ok "1" ∧ record? whole.state "a" = some (("page" : Text), [4])
      ∧ record? whole.state "b" = none := by
  have hfree : ¬ Taken (Text.ofChars ['1']) oneRecord := by
    rintro (⟨bytes, hn⟩ | ⟨n, hn⟩) <;> cases hn
  have hnone : ∀ batch, oneRecord.node? (batchPath batch) ≠ some .directory := by
    simp [oneRecord, Disk.put, Disk.node?, batchPath, List.lookup_cons]
  have h := (apply_folds_changes ⟨by decide, by decide, by decide⟩
    represents_oneRecord.tidy hnone (by decide : ∀ c ∈ repeatedChanges, Valid c.kind c.ident)
    (by decide) (by decide +kernel)).2 hfree
  refine ⟨h.1, ?_⟩
  rw [h.2.1.record?_eq]
  exact ⟨rfl, rfl⟩

/-- A record below a directory that is not there is not put in place, and its batch stays.  And when an
identifier in two halves is deleted, the record of the character is gone. -/
theorem apply_folds_changes_misnamed :
    (Disk.WellFormed {} ∧ Tidy {} ∧ (∀ batch, Disk.node? (batchPath batch) {} ≠ some .directory)
      ∧ (∀ c ∈ slashed, Valid c.kind c.ident)
      ∧ let whole := Procedure.run (apply (Text.ofChars ['1']) slashed) {}
        whole.result = .error (.storage .missing)
          ∧ whole.state.node? (batchPath (Text.ofChars ['1'])) = some .directory
          ∧ record? whole.state "a/b" ≠ appliedAll (record? {}) slashed "a/b")
    ∧ pairedDisk.WellFormed ∧ Tidy pairedDisk
      ∧ (∀ batch, pairedDisk.node? (batchPath batch) ≠ some .directory)
      ∧ (∀ c ∈ halved, Valid c.kind c.ident ∧ c.Fits)
      ∧ let whole := Procedure.run (apply (Text.ofChars ['1']) halved) pairedDisk
        whole.result = .ok (Text.ofChars ['1'])
          ∧ record? whole.state "😀" ≠ appliedAll (record? pairedDisk) halved "😀" := by
  constructor
  · obtain ⟨ss, d', -, -, h, ⟨hresult, hstate⟩, -⟩ := apply_slashed
    refine ⟨Disk.wellFormed_empty, tidy_empty, noBatch_empty, properChanges_slashed.valid, hresult, ?_, ?_⟩
    · rw [hstate]
      exact h.directory
    · have s := settled_of_tidy Disk.wellFormed_empty tidy_empty noBatch_empty
      rw [hstate, (s.represents_of_elsewhere h.other).record?_eq, represents_empty.record?_eq]
      exact nofun
  · obtain ⟨ss, d', hruns, s'⟩ := apply_halved
    refine ⟨wellFormed_pairedDisk, represents_pairedDisk.tidy, noBatch_pairedDisk, by decide,
      hruns.result_eq, ?_⟩
    have hstate : (Procedure.run (apply (Text.ofChars ['1']) halved) pairedDisk).state = d' :=
      hruns.state_eq
    rw [hstate, s'.represents.record?_eq, represents_pairedDisk.record?_eq]
    exact nofun

end Apply

end RecordStore.Repository
