import Mathlib.Logic.Function.Basic
import RecordStore.Proofs.Disk.Tree
import RecordStore.Proofs.RecordName
import RecordStore.Repository

/-!
# RecordStore.Proofs.Repository.Records

What a repository stores: a finite map from identifiers to the kind and the bytes of a record
(`Contents`).  A repository is `Tidy` when no identifier has two record files and no directory has
the name of one; then its map (`record?`) and its record files say the same (`Represents`), and a
change of the files of one identifier is a change of the map at that place (`Represents.update`).
-/

namespace RecordStore.Repository

open RecordName (Valid file)

/-- The kind and the bytes of the records of a repository. -/
abbrev Contents := Text → Option (Text × Bytes)

/-- The kind and the bytes of the record that is found for an identifier. -/
def record? (d : Disk) : Contents := fun ident => do
  let f ← find? ident d
  let bytes ← (d.read [f.name]).toOption
  return (f.kind, bytes)

/-- What stands at the name of a record of a kind, by what is stored. -/
def recordNode (v? : Option (Text × Bytes)) (kind : Text) : Option Node :=
  (v?.filter fun v => v.1 = kind).map fun v => .file v.2

/-- A repository in which the record of an identifier is one file. -/
structure Tidy (d : Disk) : Prop where
  oneFile : ∀ {kind kind' ident}, Valid kind ident → Valid kind' ident →
    d.holds [file kind ident] = true → d.holds [file kind' ident] = true → kind = kind'
  noDirectory : ∀ {kind ident}, Valid kind ident → d.node? [file kind ident] ≠ some .directory

/-- The record files of a repository are those of a map. -/
structure Represents (d : Disk) (m : Contents) : Prop where
  eq_some_iff : ∀ {kind ident bytes}, m ident = some (kind, bytes) ↔
    Valid kind ident ∧ d.node? [file kind ident] = some (.file bytes)
  noDirectory : ∀ {kind ident}, Valid kind ident → d.node? [file kind ident] ≠ some .directory

section RecordNode

variable {v? : Option (Text × Bytes)} {kind : Text}

@[simp] theorem recordNode_none (kind : Text) : recordNode none kind = none := rfl

@[simp] theorem recordNode_some (v : Text × Bytes) (kind : Text) :
    recordNode (some v) kind = if v.1 = kind then some (.file v.2) else none := by
  by_cases h : v.1 = kind <;> simp [recordNode, Option.filter, h]

theorem recordNode_eq_file_iff {bytes : Bytes} :
    recordNode v? kind = some (.file bytes) ↔ v? = some (kind, bytes) := by
  cases v? with
  | none => simp
  | some v =>
      obtain ⟨k, b⟩ := v
      simp

theorem recordNode_ne_directory : recordNode v? kind ≠ some .directory := by
  cases v? <;> simp

/-- One record has the file of one kind only. -/
theorem recordNode_unique {k k' : Text}
    (h : (recordNode v? k).isSome = true) (h' : (recordNode v? k').isSome = true) : k = k' := by
  cases v? with
  | none => cases h
  | some v =>
      have hkind : ∀ {k}, (recordNode (some v) k).isSome = true → v.1 = k := by
        intro k h
        by_contra hne
        rw [recordNode_some, if_neg hne] at h
        cases h
      exact (hkind h).symm.trans (hkind h')

end RecordNode

/-! ## Finding records -/

section Finding

variable {d : Disk} {m : Contents} {f : RecordFile} {kind ident : Text} {bytes : Bytes}

theorem recordFile?_eq_some_iff {name : Text} :
    recordFile? name = some f ↔ Valid f.kind f.ident ∧ name = file f.kind f.ident ∧ f.name = name := by
  rw [recordFile?, Option.map_eq_some_iff]
  constructor
  · rintro ⟨⟨k, i⟩, hname, rfl⟩
    obtain ⟨hv, hfile⟩ := RecordName.ofFile?_eq_some_iff.1 hname
    exact ⟨hv, hfile, rfl⟩
  · rintro ⟨hv, hname, hf⟩
    refine ⟨(f.kind, f.ident), RecordName.ofFile?_eq_some_iff.2 ⟨hv, hname⟩, ?_⟩
    rw [← hf]

/-- The record files are the files with the name of one. -/
theorem mem_recordFiles_iff : f ∈ recordFiles d ↔
    Valid f.kind f.ident ∧ f.name = file f.kind f.ident ∧ ∃ n, d.node? [f.name] = some n := by
  rw [recordFiles, List.mem_filterMap]
  constructor
  · rintro ⟨name, hname, hf⟩
    obtain ⟨hv, hfile, rfl⟩ := recordFile?_eq_some_iff.1 hf
    exact ⟨hv, hfile, Disk.mem_names_iff.1 hname⟩
  · rintro ⟨hv, hfile, hn⟩
    exact ⟨f.name, Disk.mem_names_iff.2 hn, recordFile?_eq_some_iff.2 ⟨hv, hfile, rfl⟩⟩

/-- A record file is known by its name. -/
theorem eq_of_name_eq {g : RecordFile} (hf : f ∈ recordFiles d) (hg : g ∈ recordFiles d)
    (h : f.name = g.name) : f = g := by
  have hname : ∀ {x}, x ∈ recordFiles d → recordFile? x.name = some x := by
    intro x hx
    obtain ⟨hv, hfile, -⟩ := mem_recordFiles_iff.1 hx
    exact recordFile?_eq_some_iff.2 ⟨hv, hfile, rfl⟩
  have heq := (hname hf).symm.trans (h ▸ hname hg)
  exact Option.some.inj heq

theorem mem_recordFiles_of_find? (h : find? ident d = some f) :
    f ∈ recordFiles d ∧ f.ident = ident :=
  ⟨List.mem_of_find?_eq_some h, by simpa using List.find?_some h⟩

/-- Where there is a record file of an identifier, one is found. -/
theorem exists_find? (hf : f ∈ recordFiles d) : ∃ f', find? f.ident d = some f' := by
  rw [← Option.isSome_iff_exists, find?, List.find?_isSome]
  exact ⟨f, hf, by simp⟩

/-- The entry that is found for an identifier is the one of the record file that is found for it. -/
theorem find?_entries (ident : Text) (d : Disk) : (entries none d).find? (fun e => e.2 == ident)
    = (find? ident d).map fun f => (f.kind, f.ident) := by
  have hall : (recordFiles d).filter (fun _ => true) = recordFiles d :=
    List.filter_eq_self.2 fun _ _ => rfl
  simp only [entries, Option.all_none, hall, List.find?_map, find?]
  rfl

namespace Represents

/-- What stands at the name of a record. -/
theorem node?_file (r : Represents d m) (hv : Valid kind ident) :
    d.node? [file kind ident] = recordNode (m ident) kind := by
  cases hn : d.node? [file kind ident] with
  | some n =>
      cases n with
      | directory => exact absurd hn (r.noDirectory hv)
      | file bytes => simp [r.eq_some_iff.2 ⟨hv, hn⟩]
  | none =>
      cases hm : m ident with
      | none => rfl
      | some v =>
          have hne : v.1 ≠ kind := by
            rintro rfl
            rw [(r.eq_some_iff.1 hm).2] at hn
            cases hn
          simp [hne]

theorem find?_eq_some (r : Represents d m) (h : m ident = some (kind, bytes)) :
    find? ident d = some ⟨kind, ident, file kind ident⟩ := by
  obtain ⟨hv, hnode⟩ := r.eq_some_iff.1 h
  have hmem : ⟨kind, ident, file kind ident⟩ ∈ recordFiles d :=
    mem_recordFiles_iff.2 ⟨hv, rfl, _, hnode⟩
  obtain ⟨⟨kind', ident', name'⟩, hf⟩ := exists_find? hmem
  obtain ⟨hmem', hident⟩ := mem_recordFiles_of_find? hf
  obtain ⟨hv', hname, n, hn⟩ := mem_recordFiles_iff.1 hmem'
  dsimp only at hf hident hv' hname hn
  subst hident hname
  cases n with
  | directory => exact absurd hn (r.noDirectory hv')
  | file bytes' =>
      have h' := r.eq_some_iff.2 ⟨hv', hn⟩
      rw [h, Option.some.injEq, Prod.mk.injEq] at h'
      obtain ⟨rfl, -⟩ := h'
      exact hf

theorem find?_eq_none (r : Represents d m) (h : m ident = none) : find? ident d = none := by
  cases hf : find? ident d with
  | none => rfl
  | some f =>
      obtain ⟨hmem, rfl⟩ := mem_recordFiles_of_find? hf
      obtain ⟨hv, hname, n, hn⟩ := mem_recordFiles_iff.1 hmem
      rw [hname] at hn
      cases n with
      | directory => exact absurd hn (r.noDirectory hv)
      | file bytes => rw [r.eq_some_iff.2 ⟨hv, hn⟩] at h; cases h

/-- The records that are found are those of the map. -/
theorem record?_eq (r : Represents d m) : record? d = m := by
  funext ident
  cases h : m ident with
  | none => simp [record?, r.find?_eq_none h]
  | some v =>
      obtain ⟨kind, bytes⟩ := v
      have hread := Disk.read_file (r.eq_some_iff.1 h).2
      simp [record?, r.find?_eq_some h, hread, Except.toOption]

theorem read_eq (r : Represents d m) (ident : Text) : read ident d = .ok ((m ident).map Prod.snd) := by
  cases h : m ident with
  | none => simp [read, r.find?_eq_none h]
  | some v =>
      obtain ⟨kind, bytes⟩ := v
      have hread := Disk.read_file (r.eq_some_iff.1 h).2
      simp [read, r.find?_eq_some h, hread, Except.map, Except.mapError]

theorem exists?_eq (r : Represents d m) : exists? ident d = (m ident).isSome := by
  cases h : m ident with
  | none => simp [exists?, r.find?_eq_none h]
  | some v => simp [exists?, r.find?_eq_some h]

theorem tidy (r : Represents d m) : Tidy d where
  noDirectory := r.noDirectory
  oneFile := by
    intro kind kind' ident hv hv' h h'
    have hfile : ∀ {k}, Valid k ident → d.holds [file k ident] = true →
        ∃ bytes, m ident = some (k, bytes) := by
      intro k hv h
      obtain ⟨n, hn⟩ := Disk.holds_iff.1 h
      cases n with
      | directory => exact absurd hn (r.noDirectory hv)
      | file bytes => exact ⟨bytes, r.eq_some_iff.2 ⟨hv, hn⟩⟩
    obtain ⟨b, hb⟩ := hfile hv h
    obtain ⟨b', hb'⟩ := hfile hv' h'
    rw [hb, Option.some.injEq, Prod.mk.injEq] at hb'
    exact hb'.1

end Represents

/-- A tidy repository has the record files of its map. -/
theorem Tidy.represents (t : Tidy d) : Represents d (record? d) where
  noDirectory := t.noDirectory
  eq_some_iff := by
    intro kind ident bytes
    constructor
    · intro h
      obtain ⟨f, hf, h⟩ := Option.bind_eq_some_iff.1 h
      obtain ⟨b, hb, h⟩ := Option.bind_eq_some_iff.1 h
      cases h
      obtain ⟨hmem, rfl⟩ := mem_recordFiles_of_find? hf
      obtain ⟨hv, hname, n, hn⟩ := mem_recordFiles_iff.1 hmem
      rw [← hname]
      cases n with
      | directory => exact absurd (hname ▸ hn) (t.noDirectory hv)
      | file bytes' =>
          rw [Disk.read_file hn] at hb
          cases hb
          exact ⟨hv, hn⟩
    · rintro ⟨hv, hnode⟩
      have hmem : ⟨kind, ident, file kind ident⟩ ∈ recordFiles d :=
        mem_recordFiles_iff.2 ⟨hv, rfl, _, hnode⟩
      obtain ⟨f, hf⟩ := exists_find? hmem
      obtain ⟨hmem', hident⟩ := mem_recordFiles_of_find? hf
      obtain ⟨hv', hname, n, hn⟩ := mem_recordFiles_iff.1 hmem'
      dsimp only at hident hf
      rw [hident] at hv' hname
      have hkind : f.kind = kind := t.oneFile hv' hv
        (Disk.holds_iff.2 ⟨n, hname ▸ hn⟩) (Disk.holds_iff.2 ⟨_, hnode⟩)
      rw [hkind] at hname
      simp [record?, hf, hname, Disk.read_file hnode, hkind, Except.toOption]

end Finding

/-! ## Changing records -/

/-- The names of record files are those of no other file of a repository. -/
theorem file_ne_pendingName {kind ident : Text} (v : Valid kind ident) :
    file kind ident ≠ pendingName := by
  intro h
  have hname := RecordName.ofFile?_file v
  have hnone : RecordName.ofFile? pendingName = none := by decide
  rw [h, hnone] at hname
  cases hname

theorem singleton_file_ne {k k' i i' : Text} (v : Valid k i) (v' : Valid k' i')
    (h : i ≠ i' ∨ k ≠ k') : [file k i] ≠ [file k' i'] := by
  intro heq
  obtain ⟨hk, hi⟩ := RecordName.file_inj v (List.cons.inj heq).1 v'
  exact h.elim (fun h => h hi) (fun h => h hk)

namespace Represents

variable {d d' : Disk} {m : Contents}

/-- Changes outside the record files do not change the map. -/
theorem congr (r : Represents d m)
    (h : ∀ {kind ident}, Valid kind ident → d'.node? [file kind ident] = d.node? [file kind ident]) :
    Represents d' m where
  eq_some_iff := by
    intro kind ident bytes
    rw [r.eq_some_iff]
    constructor
    · rintro ⟨hv, hn⟩; exact ⟨hv, (h hv).trans hn⟩
    · rintro ⟨hv, hn⟩; exact ⟨hv, (h hv).symm.trans hn⟩
  noDirectory := fun hv => by rw [h hv]; exact r.noDirectory hv

/-- The record files of one identifier change, and the map at its place. -/
theorem update (r : Represents d m) {ident : Text} {v? : Option (Text × Bytes)}
    (hother : ∀ {k i}, Valid k i → i ≠ ident → d'.node? [file k i] = d.node? [file k i])
    (hself : ∀ {k}, Valid k ident → d'.node? [file k ident] = recordNode v? k)
    (hvalid : ∀ v ∈ v?, Valid v.1 ident) :
    Represents d' (Function.update m ident v?) where
  eq_some_iff := by
    intro k i bytes
    by_cases hi : i = ident
    · subst hi
      rw [Function.update_self]
      constructor
      · intro h
        have hv := hvalid _ h
        exact ⟨hv, (hself hv).trans (recordNode_eq_file_iff.2 h)⟩
      · rintro ⟨hv, hn⟩
        exact recordNode_eq_file_iff.1 ((hself hv).symm.trans hn)
    · rw [Function.update_of_ne hi, r.eq_some_iff]
      constructor
      · rintro ⟨hv, hn⟩; exact ⟨hv, (hother hv hi).trans hn⟩
      · rintro ⟨hv, hn⟩; exact ⟨hv, (hother hv hi).symm.trans hn⟩
  noDirectory := by
    intro k i hv
    by_cases hi : i = ident
    · subst hi
      rw [hself hv]
      exact recordNode_ne_directory
    · rw [hother hv hi]; exact r.noDirectory hv

/-- A record that is stored under the kind that it has already, or as a new one. -/
theorem put_file (r : Represents d m) {kind ident : Text} (hv : Valid kind ident)
    (hkind : ∀ v ∈ m ident, v.1 = kind) (bytes : Bytes) :
    Represents (d.put [file kind ident] (.file bytes))
      (Function.update m ident (some (kind, bytes))) := by
  have hput := Disk.node?_put (p := [file kind ident]) (by simp) (.file bytes) d
  refine r.update ?_ ?_ (by simp [hv])
  · intro k i hk hi
    rw [hput, if_neg (singleton_file_ne hk hv (.inl hi))]
  · intro k hk
    rw [hput, r.node?_file hk]
    by_cases h : kind = k
    · simp [h]
    · have hnone : recordNode (m ident) k = none := by
        cases hm : m ident with
        | none => rfl
        | some v => rw [recordNode_some, hkind v hm, if_neg h]
      rw [if_neg (singleton_file_ne hk hv (.inr (Ne.symm h))), hnone]
      simp [h]

end Represents

/-- An empty repository has no records. -/
theorem represents_empty : Represents {} fun _ => none where
  eq_some_iff := by simp [Disk.node?]
  noDirectory := by simp [Disk.node?]

end RecordStore.Repository
