import RecordStore.Proofs.Repository.Effect
import RecordStore.Proofs.Repository.Staging

/-!
# RecordStore.Proofs.Repository.Applied

What a whole batch does to a repository.  A repository `Admits` changes when nothing is in the way of
any of them; then the batch is put in place, and the disk after it is described for each
change by itself (`Applied`).  So it does not matter in which order the changes of a batch stand, or
whether they come in one batch or in several.
-/

namespace RecordStore.Repository

open Disk (Program)
open Procedure
open RecordName (Valid file)

/-- A repository in which nothing is in the way of changes, taken by themselves. -/
structure Admits (changes : List Change) (d : Disk) : Prop where
  clear : ∀ c ∈ changes, Clear c (c.data?.map .file) d
  noFile : changes ≠ [] → ∀ bytes, d.node? pending ≠ some (.file bytes)

/-- A disk to which changes were applied: each left of its record files what it does by itself. -/
structure Applied (changes : List Change) (d d' : Disk) : Prop where
  wellFormed : d'.WellFormed
  record : ∀ c ∈ changes, ∀ k, Valid k c.ident →
    d'.node? [file k c.ident] = leaves c (c.data?.map .file) d (file k c.ident)
  directory : changes ≠ [] → d'.node? pending = some .directory
  other : ∀ p, (changes ≠ [] → p ≠ pending) →
    (∀ c ∈ changes, ∀ k, Valid k c.ident → p ≠ [file k c.ident]) → d'.node? p = d.node? p

section Laws

variable {cs cs₁ cs₂ : List Change} {d d₁ d₂ : Disk}

theorem applied_nil (w : d.WellFormed) : Applied [] d d :=
  ⟨w, by simp, by simp, fun _ _ _ => rfl⟩

theorem ne_nil_iff_of_perm (hperm : cs₁.Perm cs₂) : cs₁ ≠ [] ↔ cs₂ ≠ [] := by
  rw [← List.length_pos_iff, ← List.length_pos_iff, hperm.length_eq]

/-- The order of changes does not matter. -/
theorem Admits.perm (h : Admits cs₁ d) (hperm : cs₁.Perm cs₂) : Admits cs₂ d where
  clear := fun c hc => h.clear c (hperm.mem_iff.2 hc)
  noFile := fun hne => h.noFile ((ne_nil_iff_of_perm hperm).2 hne)

/-- The order of changes does not matter. -/
theorem Applied.perm (h : Applied cs₁ d d₁) (hperm : cs₁.Perm cs₂) : Applied cs₂ d d₁ where
  wellFormed := h.wellFormed
  record := fun c hc => h.record c (hperm.mem_iff.2 hc)
  directory := fun hne => h.directory ((ne_nil_iff_of_perm hperm).2 hne)
  other := fun p hp hrecord => h.other p (fun hne => hp ((ne_nil_iff_of_perm hperm).1 hne))
    fun c hc => hrecord c (hperm.mem_iff.1 hc)

/-- What changes leave is determined. -/
theorem Applied.node?_eq (h₁ : Applied cs d d₁) (h₂ : Applied cs d d₂) (p : Path) :
    d₁.node? p = d₂.node? p := by
  by_cases hrecord : ∃ c ∈ cs, ∃ k, Valid k c.ident ∧ p = [file k c.ident]
  · obtain ⟨c, hc, k, hk, rfl⟩ := hrecord
    rw [h₁.record c hc k hk, h₂.record c hc k hk]
  have hother : ∀ c ∈ cs, ∀ k, Valid k c.ident → p ≠ [file k c.ident] :=
    fun c hc k hk heq => hrecord ⟨c, hc, k, hk, heq⟩
  by_cases hpending : cs ≠ [] ∧ p = pending
  · obtain ⟨hne, rfl⟩ := hpending
    rw [h₁.directory hne, h₂.directory hne]
  · have hp : cs ≠ [] → p ≠ pending := fun hne heq => hpending ⟨hne, heq⟩
    rw [h₁.other p hp hother, h₂.other p hp hother]

section Splitting

variable (hnodup : ((cs₁ ++ cs₂).map Change.ident).Nodup) (h : Applied cs₁ d d₁)
include hnodup

theorem ident_ne_of_nodup_append {c c' : Change} (hc : c ∈ cs₁) (hc' : c' ∈ cs₂) :
    c'.ident ≠ c.ident := by
  rw [List.map_append, List.nodup_append] at hnodup
  exact (hnodup.2.2 _ (List.mem_map_of_mem hc) _ (List.mem_map_of_mem hc')).symm

include h

/-- Changes do not touch the record files of later ones. -/
theorem Applied.node?_later {c : Change} (hc : c ∈ cs₂) (k : Text) (hk : Valid k c.ident) :
    d₁.node? [file k c.ident] = d.node? [file k c.ident] := by
  refine h.other _ (fun _ => ?_) fun c' hc' k' hk' => ?_
  · simpa [pending] using file_ne_pendingName hk
  · exact singleton_file_ne hk hk' (.inl (ident_ne_of_nodup_append hnodup hc' hc))

/-- Changes are not in the way of later ones. -/
theorem Applied.admits (hvalid : ∀ c ∈ cs₂, Valid c.kind c.ident) (ha : Admits (cs₁ ++ cs₂) d) :
    Admits cs₂ d₁ where
  clear := fun c hc => (ha.clear c (List.mem_append_right _ hc)).congr
    (fun k hk => (h.node?_later hnodup hc k hk).symm) (hvalid c hc)
  noFile := by
    intro hne bytes hn
    by_cases hnil : cs₁ = []
    · rw [h.other _ (fun hne => absurd hnil hne) (by simp [hnil])] at hn
      exact ha.noFile (by simp [hne]) bytes hn
    · rw [h.directory hnil] at hn
      cases hn

/-- Changes that are applied in two batches are applied. -/
theorem Applied.append (h₂ : Applied cs₂ d₁ d₂) : Applied (cs₁ ++ cs₂) d d₂ where
  wellFormed := h₂.wellFormed
  record := by
    intro c hc k hk
    rcases List.mem_append.1 hc with hc | hc
    · rw [h₂.other, h.record c hc k hk]
      · exact fun _ => by simpa [pending] using file_ne_pendingName hk
      · intro c' hc' k' hk'
        exact singleton_file_ne hk hk' (.inl (ident_ne_of_nodup_append hnodup hc hc').symm)
    · rw [h₂.record c hc k hk, leaves_congr (h.node?_later hnodup hc) hk]
  directory := by
    intro hne
    by_cases hnil : cs₂ = []
    · rw [h₂.other _ (fun hne => absurd hnil hne) (by simp [hnil])]
      exact h.directory (by simpa [hnil] using hne)
    · exact h₂.directory hnil
  other := by
    intro p hp hrecord
    rw [h₂.other p, h.other p]
    · exact fun hne => hp (by simp [hne])
    · exact fun c hc => hrecord c (List.mem_append_left _ hc)
    · exact fun hne => hp (by simp [hne])
    · exact fun c hc => hrecord c (List.mem_append_right _ hc)

end Splitting

end Laws

/-- Where no directory has the name of a record file, all changes are admitted whose records have names
that files can have. -/
theorem admits_of_noDirectory {changes : List Change} {d : Disk}
    (hnone : ∀ kind ident, Valid kind ident → d.node? [file kind ident] ≠ some .directory)
    (hpending : ∀ bytes, d.node? pending ≠ some (.file bytes))
    (hvalid : ∀ c ∈ changes, Valid c.kind c.ident) (hfits : ∀ c ∈ changes, c.Fits) :
    Admits changes d where
  clear := fun c hc => clear_of_noDirectory (hnone _ _) (hvalid c hc) (hfits c hc) _
  noFile := fun _ => hpending

/-! ## Applying a batch -/

section Batch

variable {batch : Text} {changes : List Change} {d d₁ d' : Disk}

/-- A batch that is committed can be replayed. -/
theorem Committed.ready (h : Committed batch changes d d₁) : Ready batch 0 changes d₁ where
  wellFormed := h.wellFormed
  directory := h.directory
  offered := fun i c hc => .inr (by rw [Nat.zero_add, h.staged i c hc])

theorem Committed.node?_file (h : Committed batch changes d d₁) {k ident : Text}
    (hk : Valid k ident) : d₁.node? [file k ident] = d.node? [file k ident] :=
  h.other _ (by simpa [pending] using file_ne_pendingName hk)
    (by simp [Disk.encloses, batchPath, Text.dropPrefix?])

/-- Committing a batch puts nothing in the way of its changes, and takes nothing away. -/
theorem Committed.allClear_iff (h : Committed batch changes d d₁)
    (hvalid : ∀ c ∈ changes, Valid c.kind c.ident) :
    AllClear batch 0 changes d₁ ↔ ∀ c ∈ changes, Clear c (c.data?.map .file) d := by
  have hiff : ∀ i c, changes[i]? = some c →
      (Clear c (d₁.node? (stagedPath batch (0 + i))) d₁ ↔ Clear c (c.data?.map .file) d) := by
    intro i c hc
    have hv := hvalid c (List.mem_of_getElem? hc)
    rw [Nat.zero_add, h.staged i c hc]
    exact ⟨Clear.congr (fun k hk => h.node?_file hk) hv,
      Clear.congr (fun k hk => (h.node?_file hk).symm) hv⟩
  constructor
  · intro hall c hc
    obtain ⟨i, hi⟩ := List.mem_iff_getElem?.1 hc
    exact (hiff i c hi).1 (hall i c hi)
  · exact fun hall i c hi => (hiff i c hi).2 (hall c (List.mem_of_getElem? hi))

/-- When a committed batch is replayed and taken away, its changes are applied. -/
theorem Committed.applied (h : Committed batch changes d d₁) (hne : changes ≠ [])
    (w : d.WellFormed) (hfree : d.node? (batchPath batch) = none)
    (hc : Carried batch 0 changes d₁ d') : Applied changes d (d'.eraseTree (batchPath batch)) := by
  have herase := Disk.node?_eraseTree (p := batchPath batch) (by simp [batchPath]) d'
  refine ⟨hc.wellFormed.eraseTree _, ?_, fun _ => ?_, ?_⟩
  · intro c hmem k hk
    obtain ⟨i, hi⟩ := List.mem_iff_getElem?.1 hmem
    rw [herase, if_neg (by simp [Disk.encloses, batchPath, Text.dropPrefix?]), hc.record i c hi k hk,
      Nat.zero_add, h.staged i c hi, leaves_congr (fun k hk => h.node?_file hk) hk]
  · have hpending : d₁.node? pending = some .directory := h.wellFormed.node?_dropLast h.directory
    rw [herase, if_neg (by simp [Disk.encloses, batchPath, pending, Text.dropPrefix?]), hc.other,
      hpending]
    · exact fun _ _ => by simp [stagedPath, batchPath, pending]
    · intro c hmem k hk
      simpa [pending] using (file_ne_pendingName hk).symm
  · intro p hp hrecord
    rw [herase]
    split
    · next hin =>
      obtain ⟨rest, rfl⟩ := Disk.encloses_iff.1 hin
      cases rest with
      | nil => rw [List.append_nil, hfree]
      | cons name rest => exact (w.node?_append_eq_none (by rw [hfree]; simp) _ (by simp)).symm
    · next hout =>
      rw [hc.other p, h.other p (hp hne) (by simpa using hout)]
      · rintro i - rfl
        exact hout (Disk.encloses_append _ _)
      · exact hrecord

variable (w : d.WellFormed) (hb : Json.Unpaired batch) (hp : ProperChanges changes)
  (hfree : d.node? (batchPath batch) = none) (hne : changes ≠ [])
include w hb hp hfree hne

/-- **A batch is applied** to a repository that admits its changes. -/
theorem apply_yields_applied (ha : Admits changes d) :
    ∃ d', (apply batch changes).Yields d (.ok batch) d' ∧ Applied changes d d' := by
  have htaken : ¬ Taken batch d := by
    rintro (⟨bytes, hn⟩ | ⟨n, hn⟩)
    · exact ha.noFile hne bytes hn
    · rw [hfree] at hn
      cases hn
  obtain ⟨content, hencode, -⟩ := Manifest.read_encode hb hp.unpaired
  obtain ⟨e, heq⟩ := applyProgram_eq hencode
  obtain ⟨ss, d₁, hruns, -, h⟩ := commitBatch_runs w htaken hencode
  obtain ⟨content, hmanifest, hencode⟩ := h.manifest
  obtain ⟨ss', d', hreplay, hcarried⟩ := replay_runs_carried hmanifest hencode hb hp h.ready
    ((h.allClear_iff hp.valid).2 ha.clear)
  have happly : (applyProgram batch changes).Runs d (ss ++ (ss' ++ [])) batch
      (d'.eraseTree (batchPath batch)) := by
    rw [heq]
    exact hruns.andThen (.told e (hreplay.andThen (.done batch _)))
  exact ⟨_, happly.yields, h.applied hne w hfree hcarried⟩

variable (hkept : ∀ c ∈ changes, c.Kept)
include hkept

omit hfree hne in
/-- A repository to which a batch was applied admitted its changes. -/
theorem admits_of_apply {name : Text} (h : (apply batch changes).Yields d (.ok name) d') :
    Admits changes d := by
  obtain ⟨content, hencode, -⟩ := Manifest.read_encode hb hp.unpaired
  obtain ⟨e, heq⟩ := applyProgram_eq hencode
  rw [apply, heq, Program.run_bind, yields_bind_ok_iff] at h
  obtain ⟨_, d₁, hcommit, h⟩ := h
  by_cases htaken : Taken batch d
  · obtain ⟨-, f, hf⟩ := @commitBatch_refused _ changes _ content w htaken
    cases (hcommit.unique hf).1
  · obtain ⟨ss, d₂, hruns, -, hd⟩ := commitBatch_runs w htaken hencode
    obtain rfl : d₁ = d₂ := (hcommit.unique hruns.yields).2
    rw [Program.yields_told_iff, Program.run_bind, yields_bind_ok_iff] at h
    obtain ⟨_, d₃, hreplay, -⟩ := h
    obtain ⟨content, hmanifest, hencode⟩ := hd.manifest
    have hclear := allClear_of_replay hmanifest hencode hb hp hkept hd.ready hd.staged hreplay
    exact ⟨(hd.allClear_iff hp.valid).1 hclear, fun _ bytes hn => htaken (.inl ⟨bytes, hn⟩)⟩

omit hfree in
/-- **A batch that came to its end** was applied. -/
theorem applied_of_apply {name : Text} (h : (apply batch changes).Yields d (.ok name) d') :
    Applied changes d d' := by
  have hfree : d.node? (batchPath batch) = none := by
    by_contra hn
    obtain ⟨content, hencode, -⟩ := Manifest.read_encode hb hp.unpaired
    obtain ⟨e, heq⟩ := applyProgram_eq hencode
    have htaken : Taken batch d := .inr (Option.ne_none_iff_exists'.1 hn)
    obtain ⟨-, f, hf⟩ := @commitBatch_refused _ changes _ content w htaken
    rw [apply, heq, Program.run_bind, yields_bind_ok_iff] at h
    obtain ⟨_, d₁, hcommit, -⟩ := h
    cases (hcommit.unique hf).1
  obtain ⟨d₁, happly, happlied⟩ :=
    apply_yields_applied w hb hp hfree hne (admits_of_apply w hb hp hkept h)
  rwa [(h.unique happly).2]

end Batch

end RecordStore.Repository
