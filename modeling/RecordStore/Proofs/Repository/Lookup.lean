import RecordStore.Proofs.Repository.Records
import RecordStore.Proofs.TextOrder

/-!
# RecordStore.Proofs.Repository.Lookup

Which record file is found for an identifier when there are several: the one whose name comes first
(`find?_eq_some_iff`).  So what is found depends on the names of that identifier's record files and
on nothing else (`find?_congr`).
-/

namespace RecordStore.Repository

open RecordName (Valid file)

variable {d d' : Disk} {ident kind : Text} {f : RecordFile}

/-- The record files come in the order of their names. -/
theorem pairwise_recordFiles (d : Disk) :
    (recordFiles d).Pairwise fun f g => f.name.ble g.name = true := by
  have hnames : (d.names []).Pairwise fun a b => a.ble b = true :=
    List.pairwise_mergeSort Text.ble_trans Text.ble_total _
  refine List.Pairwise.filterMap _ ?_ hnames
  intro a b hab f hf g hg
  rw [(recordFile?_eq_some_iff.1 hf).2.2, (recordFile?_eq_some_iff.1 hg).2.2]
  exact hab

/-- **What is found.** The record file of an identifier is the first of those that there are. -/
theorem find?_eq_some_iff : find? ident d = some f ↔ f ∈ recordFiles d ∧ f.ident = ident
    ∧ ∀ g ∈ recordFiles d, g.ident = ident → f.name.ble g.name = true := by
  have hle : ∀ {f g}, find? ident d = some f → g ∈ recordFiles d → g.ident = ident →
      f.name.ble g.name = true := by
    intro f g hf hg hident
    obtain ⟨-, before, behind, hfiles, hbefore⟩ := List.find?_eq_some_iff_append.1 hf
    have hsorted := pairwise_recordFiles d
    rw [hfiles] at hg hsorted
    rcases List.mem_append.1 hg with hg | hg
    · exact absurd (hbefore g hg) (by simp [hident])
    · rcases List.mem_cons.1 hg with rfl | hg
      · simpa using Text.ble_total g.name g.name
      · exact (List.pairwise_cons.1 (List.pairwise_append.1 hsorted).2.1).1 g hg
  constructor
  · intro h
    obtain ⟨hmem, hident⟩ := mem_recordFiles_of_find? h
    exact ⟨hmem, hident, fun g => hle h⟩
  · rintro ⟨hmem, rfl, hfirst⟩
    obtain ⟨g, hg⟩ := exists_find? hmem
    obtain ⟨hgmem, hgident⟩ := mem_recordFiles_of_find? hg
    rw [hg, eq_of_name_eq hmem hgmem (Text.ble_antisymm (hfirst g hgmem hgident) (hle hg hmem rfl))]

/-- Nothing is found for an identifier that has no record file. -/
theorem find?_eq_none_iff :
    find? ident d = none ↔ ∀ k, Valid k ident → d.node? [file k ident] = none := by
  rw [find?, List.find?_eq_none]
  constructor
  · intro h k hv
    cases hn : d.node? [file k ident] with
    | none => rfl
    | some n =>
        exact absurd (h ⟨k, ident, file k ident⟩ (mem_recordFiles_iff.2 ⟨hv, rfl, n, hn⟩)) (by simp)
  · intro h f hf hident
    obtain ⟨hv, hname, n, hn⟩ := mem_recordFiles_iff.1 hf
    obtain rfl : f.ident = ident := by simpa using hident
    rw [hname, h f.kind hv] at hn
    cases hn

/-- What is found is a record file of the identifier. -/
theorem exists_of_find? (h : find? ident d = some f) : Valid f.kind ident ∧ f.name = file f.kind ident
    ∧ f.ident = ident ∧ ∃ n, d.node? [f.name] = some n := by
  obtain ⟨hmem, rfl⟩ := mem_recordFiles_of_find? h
  obtain ⟨hv, hname, hnode⟩ := mem_recordFiles_iff.1 hmem
  exact ⟨hv, hname, rfl, hnode⟩

/-- Two repositories in which something stands at the same names of an identifier's record files
find the same one. -/
theorem find?_congr
    (h : ∀ k, Valid k ident → (d.node? [file k ident]).isSome = (d'.node? [file k ident]).isSome) :
    find? ident d = find? ident d' := by
  have hmem : ∀ g : RecordFile, g.ident = ident → (g ∈ recordFiles d ↔ g ∈ recordFiles d') := by
    rintro g rfl
    rw [mem_recordFiles_iff, mem_recordFiles_iff]
    refine and_congr_right fun hv => and_congr_right fun hname => ?_
    rw [hname, ← Option.isSome_iff_exists, ← Option.isSome_iff_exists, h g.kind hv]
  refine Option.ext fun f => ?_
  rw [find?_eq_some_iff, find?_eq_some_iff]
  constructor
  · rintro ⟨hf, hident, hfirst⟩
    exact ⟨(hmem f hident).1 hf, hident, fun g hg hi => hfirst g ((hmem g hi).2 hg) hi⟩
  · rintro ⟨hf, hident, hfirst⟩
    exact ⟨(hmem f hident).2 hf, hident, fun g hg hi => hfirst g ((hmem g hi).1 hg) hi⟩

section Reading

variable (h : ∀ k, Valid k ident → d.node? [file k ident] = d'.node? [file k ident])
include h

/-- The record of an identifier depends on what stands at the names of its record files. -/
theorem read_congr : read ident d = read ident d' := by
  rw [read, read, find?_congr fun k hv => congrArg Option.isSome (h k hv)]
  cases hf : find? ident d' with
  | none => rfl
  | some f =>
      obtain ⟨hv, hname, -, -⟩ := exists_of_find? hf
      simp only [Disk.read, hname, h _ hv]

theorem record?_congr : record? d ident = record? d' ident := by
  rw [record?, record?, find?_congr fun k hv => congrArg Option.isSome (h k hv)]
  cases hf : find? ident d' with
  | none => rfl
  | some f =>
      obtain ⟨hv, hname, -, -⟩ := exists_of_find? hf
      simp only [bind, Option.bind, Disk.read, hname, h _ hv]

end Reading

/-- Where the record files of an identifier are those of one record, that record is found. -/
theorem reads_of_recordNode {v : Text × Bytes} (hv : Valid v.1 ident)
    (h : ∀ k, Valid k ident → d.node? [file k ident] = recordNode (some v) k) :
    read ident d = .ok (some v.2) ∧ record? d ident = some v := by
  have hself : d.node? [file v.1 ident] = some (.file v.2) := by simp [h _ hv]
  cases hf : find? ident d with
  | none => simp [find?_eq_none_iff.1 hf _ hv] at hself
  | some f =>
      obtain ⟨hk, hname, -, n, hn⟩ := exists_of_find? hf
      have hkind : v.1 = f.kind := by
        by_contra hne
        simp [hname, h _ hk, hne] at hn
      rw [← hkind] at hname
      have hread := Disk.read_file hself
      simp [read, record?, hf, hname, hread, hkind.symm, Except.map, Except.mapError, Except.toOption]

end RecordStore.Repository
