import Mathlib
import RecordStore.Proofs.Unchanged

/-!
# RecordStore.Proofs.Deletion

What a deletion takes away.  It finds the first record file of an identifier, takes this one away and
leaves all others as they are (`Repository.Without`), those of the same identifier as well.  So an
identifier that has one record file is gone after it, and one that has several is still found
(`delete_takes_first`).  Nothing is asked of the record files: there may be any, with directories among
them.
-/

namespace RecordStore

open Procedure
open RecordName (Valid file)

/-! ## A record file less -/

namespace Repository

variable {d d' : Disk} {f g : RecordFile} {kind ident other : Text}

/-- A repository from which one record file was taken away, all others being as they were. -/
structure Without (f : RecordFile) (d d' : Disk) : Prop where
  gone : d'.node? [f.name] = none
  kept : ∀ kind ident, Valid kind ident → file kind ident ≠ f.name →
    d'.node? [file kind ident] = d.node? [file kind ident]

/-- A record file that is the only one of its identifier. -/
def Alone (f : RecordFile) (d : Disk) : Prop := ∀ g ∈ recordFiles d, g.ident = f.ident → g = f

/-- There is no record of an identifier that has no record file. -/
theorem exists?_eq_false_iff : exists? ident d = false ↔ ∀ g ∈ recordFiles d, g.ident ≠ ident := by
  rw [exists?, Option.isSome_eq_false_iff, Option.isNone_iff_eq_none, find?, List.find?_eq_none]
  simp only [beq_iff_eq, ne_eq]

section Without

variable (h : Without f d d') (hf : f ∈ recordFiles d)
include h hf

/-- The record files that are left. -/
theorem Without.mem_recordFiles_iff : g ∈ recordFiles d' ↔ g ∈ recordFiles d ∧ g ≠ f := by
  have hkept : ∀ g : RecordFile, Valid g.kind g.ident → g.name = file g.kind g.ident →
      g.name ≠ f.name → d'.node? [g.name] = d.node? [g.name] := by
    intro g hv hname hne
    rw [hname] at hne ⊢
    exact h.kept _ _ hv hne
  constructor
  · intro hg
    obtain ⟨hv, hname, n, hn⟩ := Repository.mem_recordFiles_iff.1 hg
    have hne : g.name ≠ f.name := by
      intro heq
      rw [heq, h.gone] at hn
      cases hn
    rw [hkept g hv hname hne] at hn
    exact ⟨Repository.mem_recordFiles_iff.2 ⟨hv, hname, n, hn⟩, fun heq => hne (heq ▸ rfl)⟩
  · rintro ⟨hg, hne⟩
    obtain ⟨hv, hname, n, hn⟩ := Repository.mem_recordFiles_iff.1 hg
    have hnames : g.name ≠ f.name := fun heq => hne (eq_of_name_eq hg hf heq)
    rw [← hkept g hv hname hnames] at hn
    exact Repository.mem_recordFiles_iff.2 ⟨hv, hname, n, hn⟩

/-- The identifier of the record file is gone exactly when it had no other. -/
theorem Without.exists?_eq_false_iff : exists? f.ident d' = false ↔ Alone f d := by
  rw [Repository.exists?_eq_false_iff]
  constructor
  · intro hnone g hg hident
    by_contra hne
    exact hnone g ((h.mem_recordFiles_iff hf).2 ⟨hg, hne⟩) hident
  · intro halone g hg hident
    obtain ⟨hg, hne⟩ := (h.mem_recordFiles_iff hf).1 hg
    exact hne (halone g hg hident)

/-- The record files of other identifiers are as they were. -/
theorem Without.node?_other (hne : other ≠ f.ident) (hv : Valid kind other) :
    d'.node? [file kind other] = d.node? [file kind other] := by
  obtain ⟨hvalid, hname, -⟩ := Repository.mem_recordFiles_iff.1 hf
  refine h.kept kind other hv fun heq => hne ?_
  exact (RecordName.file_inj hv (heq.trans hname) hvalid).2

end Without

/-- A deletion that was applied took the record file away that was found. -/
theorem Applied.without (h : Applied [.delete f.kind ident] d d') (hf : find? ident d = some f) :
    Without f d d' := by
  obtain ⟨hvalid, hname, -, -⟩ := exists_of_find? hf
  -- What a deletion leaves is what was there, but for the record file that is found.
  have hrecord : ∀ k, Valid k ident → d'.node? [file k ident]
      = if f.kind = k then none else d.node? [file k ident] := by
    intro k hk
    refine (h.record _ List.mem_cons_self k hk).trans
      ((leaves_file (c := .delete f.kind ident) hvalid hk).trans ?_)
    simp [Change.ident, Change.data?, hf]
  refine ⟨?_, fun k i hv hne => ?_⟩
  · rw [hname, hrecord f.kind hvalid, if_pos rfl]
  · by_cases hi : i = ident
    · subst hi
      rw [hrecord k hv, if_neg]
      rintro rfl
      exact hne hname.symm
    · refine h.other _ (fun _ => by simpa [pending] using file_ne_pendingName hv) ?_
      intro c hc k' hk'
      rw [List.mem_singleton.1 hc] at hk' ⊢
      exact singleton_file_ne hv hk' (.inl hi)

end Repository

/-! ## Deleting -/

namespace Store

open Repository (Without Alone)

variable {s s' : Session} {ident : Text} {b : Bool}

/-- Whether there is a record is only looked at. -/
theorem contains_yields (h : s.Ready) (ident : Text) :
    (contains ident).Yields s (.ok (Repository.exists? ident s.disk)) s :=
  h.requireRepository.bind (lookUp_yields fun d => .ok (Repository.exists? ident d))

/-- What has no record file is not found. -/
theorem get_yields_missing (h : s.Ready) (hnone : Repository.exists? ident s.disk = false) :
    (get ident).Yields s (.error (.itemNotFound ident)) s := by
  have hlook := lookUp_yields (s := s) (Repository.read ident)
  have hfind : Repository.find? ident s.disk = none := by
    rwa [Repository.exists?, Option.isSome_eq_false_iff, Option.isNone_iff_eq_none] at hnone
  rw [Repository.read, hfind] at hlook
  exact h.ensureOpen.bind (h.requireRepository.bind (hlook.bind (yields_fail _ s)))

/-- The change that deletes a record file that is found can be written into a manifest. -/
theorem storable_delete {d : Disk} (hd : d.Nameable) {f : Repository.RecordFile}
    (hf : Repository.find? ident d = some f) :
    Repository.StorableChanges (single (.delete f.kind ident)).changes := by
  obtain ⟨hvalid, -, rfl, -⟩ := Repository.exists_of_find? hf
  have hentry := Repository.find?_entries f.ident d
  rw [hf] at hentry
  obtain ⟨hkind, hident⟩ := unpaired_of_mem_entries hd (List.mem_of_find?_eq_some hentry)
  exact storable_of_delete (proper_single hvalid ⟨hkind, hident⟩)

/-- A deletion that comes to its end found nothing and did nothing, or the record file that it found was
taken away. -/
theorem delete_yields_ok (hd : s.disk.Nameable) (h : (delete ident).Yields s (.ok b) s') :
    s'.Ready ∧ match Repository.find? ident s.disk with
      | none => b = false ∧ s' = s
      | some f => b = true ∧ Without f s.disk s'.disk := by
  have hready : s.Ready := by
    by_contra hnot
    obtain ⟨e, he⟩ := Session.requireRepository_of_not_ready hnot
    cases (h.unique he.bind_error).1
  cases hf : Repository.find? ident s.disk with
  | none =>
      obtain ⟨hb, rfl⟩ := h.unique (delete_yields_missing hready hf)
      exact ⟨hready, Except.ok.inj hb, rfl⟩
  | some f =>
      have hp := storable_delete hd hf
      have hne : (single (.delete f.kind ident)).changes ≠ [] := by simp [single, ChangeList.added]
      rcases error_or_ok (Repository.apply (batchName s.nextBatch) (single (.delete f.kind ident)).changes)
        s.disk with ⟨e, d, happly⟩ | ⟨name, d, happly⟩
      · cases (h.unique (delete_yields_found hready hf (flush_yields rfl hne happly))).1
      · obtain ⟨hresult, rfl⟩ := h.unique (delete_yields_found hready hf (flush_yields rfl hne happly))
        have happlied := Repository.applied_of_apply hd.wellFormed (unpaired_batchName _)
          hp.toProperChanges hne hp.kept happly
        exact ⟨⟨hready.closed, hready.attached⟩, Except.ok.inj hresult, happlied.without hf⟩

/-- Where no directory is in the way, a deletion answers whether there was a record. -/
theorem delete_returns (hd : s.disk.Nameable) (h : s.Ready) (hfree : s.NamesFree)
    (hnone : ∀ kind ident, Valid kind ident → s.disk.node? [file kind ident] ≠ some .directory)
    (hpending : ∀ bytes, s.disk.node? Repository.pending ≠ some (.file bytes)) (ident : Text) :
    ∃ s', (delete ident).Yields s (.ok (Repository.exists? ident s.disk)) s' := by
  rw [Repository.exists?]
  cases hf : Repository.find? ident s.disk with
  | none => exact ⟨s, delete_yields_missing h hf⟩
  | some f =>
      have hp := storable_delete hd hf
      have ha := Repository.admits_of_noDirectory hnone hpending hp.valid hp.fits
      obtain ⟨name, d, n, hflush, -⟩ := flush_applied hd.wellFormed rfl hp.toProperChanges hfree ha
      exact ⟨_, delete_yields_found h hf hflush⟩

/-- **Deletion.** A deletion that answers no found no record file, and did nothing.  One that answers yes
found a record file, and takes this one away: every other record file is as it was, whatever its
identifier.  So the identifier is gone if that was its only record file; if it had another one, then it
is still there. -/
theorem delete_takes_first (hd : s.disk.Nameable) (h : (delete ident).Yields s (.ok b) s') :
    (b = false → s' = s ∧ (contains ident).Yields s (.ok false) s)
      ∧ (b = true → ∃ f, Repository.find? ident s.disk = some f ∧ Without f s.disk s'.disk
        ∧ (∀ kind other, other ≠ ident → Valid kind other →
          s'.disk.node? [file kind other] = s.disk.node? [file kind other])
        ∧ (Alone f s.disk → (contains ident).Yields s' (.ok false) s'
          ∧ (get ident).Yields s' (.error (.itemNotFound ident)) s')
        ∧ (¬ Alone f s.disk → (contains ident).Yields s' (.ok true) s')) := by
  obtain ⟨hready, hfound⟩ := delete_yields_ok hd h
  have hcontains := contains_yields hready ident
  cases hf : Repository.find? ident s.disk with
  | none =>
      rw [hf] at hfound
      obtain ⟨rfl, rfl⟩ := hfound
      rw [Repository.exists?, hf] at hcontains
      exact ⟨fun _ => ⟨rfl, hcontains⟩, fun hb => absurd hb (by decide)⟩
  | some f =>
      rw [hf] at hfound
      obtain ⟨rfl, hwithout⟩ := hfound
      obtain ⟨hmem, rfl⟩ := Repository.mem_recordFiles_of_find? hf
      have hgone := hwithout.exists?_eq_false_iff hmem
      refine ⟨fun hb => absurd hb (by decide), fun _ => ⟨f, rfl, hwithout, ?_, ?_, ?_⟩⟩
      · exact fun kind other => hwithout.node?_other hmem
      · intro halone
        rw [hgone.2 halone] at hcontains
        exact ⟨hcontains, get_yields_missing hready (hgone.2 halone)⟩
      · intro hshared
        rw [eq_true_of_ne_false fun hnone => hshared (hgone.1 hnone)] at hcontains
        exact hcontains

end Store

/-! ## An identifier with two record files -/

/-- A repository in which the identifier `a` has two record files, and `b` has one. -/
def sharedDisk : Disk := ⟨[([file "simple" "a"], .file [1]), ([file "task" "a"], .file [2]),
  ([file "task" "b"], .file [3])]⟩

theorem recordFiles_sharedDisk : Repository.recordFiles sharedDisk
    = [⟨"simple", "a", file "simple" "a"⟩, ⟨"task", "a", file "task" "a"⟩,
      ⟨"task", "b", file "task" "b"⟩] := by cbv

theorem nameable_sharedDisk : sharedDisk.Nameable where
  wellFormed := ⟨by decide, by decide, by decide⟩
  unpaired := by
    have hnames : sharedDisk.names [] = [file "simple" "a", file "task" "a", file "task" "b"] := by cbv
    rw [hnames]
    decide

theorem noDirectory_sharedDisk {p : Path} (hp : p ≠ []) : sharedDisk.node? p ≠ some .directory := by
  intro h
  have hmem := Disk.mem_nodes_of_node? hp h
  simp [sharedDisk] at hmem

namespace Store

open Repository (Without Alone)

theorem delete_sharedDisk (ident : Text) : ∃ s', (delete ident).Yields (.starting sharedDisk)
    (.ok (Repository.exists? ident sharedDisk)) s' := by
  have hpending : ∀ names, sharedDisk.node? (Repository.pendingName :: names) = none := fun _ => rfl
  refine delete_returns (s := .starting sharedDisk) nameable_sharedDisk ⟨rfl, rfl⟩
    (fun n _ => hpending _) (fun _ _ _ => noDirectory_sharedDisk (by simp)) (fun bytes hn => ?_) ident
  cases (hpending []).symm.trans hn

/-- The only record of `b` is deleted: it is gone, and the other record files stay. -/
theorem delete_takes_first_only : ∃ s', (delete "b").Yields (.starting sharedDisk) (.ok true) s'
    ∧ (contains "b").Yields s' (.ok false) s'
    ∧ (get "b").Yields s' (.error (.itemNotFound "b")) s'
    ∧ s'.disk.node? [file "simple" "a"] = some (.file [1])
    ∧ s'.disk.node? [file "task" "a"] = some (.file [2]) := by
  obtain ⟨s', h⟩ := delete_sharedDisk "b"
  have hfind : Repository.find? "b" sharedDisk = some ⟨"task", "b", file "task" "b"⟩ := by
    rw [Repository.find?, recordFiles_sharedDisk]
    rfl
  rw [Repository.exists?, hfind] at h
  obtain ⟨f, hf, -, hother, hgone, -⟩ := (delete_takes_first nameable_sharedDisk h).2 rfl
  obtain rfl := Option.some.inj (hf.symm.trans hfind)
  have halone : Alone ⟨"task", "b", file "task" "b"⟩ sharedDisk := by
    unfold Alone
    rw [recordFiles_sharedDisk]
    decide
  obtain ⟨hcontains, hget⟩ := hgone halone
  exact ⟨s', h, hcontains, hget, hother "simple" "a" (by decide) (by decide),
    hother "task" "a" (by decide) (by decide)⟩

/-- One of the two record files of `a` is deleted: the answer is yes, and `a` is still there. -/
theorem delete_takes_first_shared : sharedDisk.Nameable
    ∧ (∀ kind ident, Valid kind ident → sharedDisk.node? [file kind ident] ≠ some .directory)
    ∧ ∃ s', (delete "a").Yields (.starting sharedDisk) (.ok true) s'
      ∧ (contains "a").Yields s' (.ok true) s' := by
  obtain ⟨s', h⟩ := delete_sharedDisk "a"
  have hfind : Repository.find? "a" sharedDisk = some ⟨"simple", "a", file "simple" "a"⟩ := by
    rw [Repository.find?, recordFiles_sharedDisk]
    rfl
  rw [Repository.exists?, hfind] at h
  obtain ⟨hready, hfound⟩ := delete_yields_ok nameable_sharedDisk h
  have hmem := (Repository.mem_recordFiles_of_find? hfind).1
  rw [show (Session.starting sharedDisk).disk = sharedDisk from rfl, hfind] at hfound
  have hshared : ¬ Alone ⟨"simple", "a", file "simple" "a"⟩ sharedDisk := by
    unfold Alone
    rw [recordFiles_sharedDisk]
    decide
  have hcontains := contains_yields hready "a"
  rw [eq_true_of_ne_false fun hnone => hshared ((hfound.2.exists?_eq_false_iff hmem).1 hnone)] at hcontains
  exact ⟨nameable_sharedDisk, fun _ _ _ => noDirectory_sharedDisk (by simp), s', h, hcontains⟩

end Store

end RecordStore
