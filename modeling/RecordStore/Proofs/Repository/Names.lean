import RecordStore.Proofs.Conflict
import RecordStore.Proofs.Repository.Manifest
import RecordStore.Proofs.Repository.Records

/-!
# RecordStore.Proofs.Repository.Names

Records and their names.  A kind and an identifier have a stem from which they are read back, if they
are `Valid` and only then, and a stem that can be read is the one of its record.  A repository reads
the names of its files in the same way: what ends as record files do is cut at its last point, and the
rest is read as a stem (`RecordName.ofFile?_eq_some_iff_stem`).  Points, separators and endings inside
of an identifier make no difference to that, so records and their files are one to one
(`recordNames_bijective`).
-/

namespace RecordStore

namespace RecordName

variable {name kind ident : Text}

theorem lastName_of_isSuffix (hslash : .char '/' ∉ name) (hsuffix : suffix <:+ name) :
    lastName name = name := by
  simp [lastName, ofText_of_isSuffix hslash hsuffix]

/-- The name of a record file ends as record files do, and what stands before its last point is the
stem of the record. -/
theorem ofFile?_eq_some_iff_stem (hslash : .char '/' ∉ name) : ofFile? name = some (kind, ident)
    ↔ suffix <:+ name ∧ ofStem (pathStem name) = .ok (kind, ident) := by
  rw [ofFile?_eq_some_iff, ofStem_eq_ok_iff]
  constructor
  · rintro ⟨hv, rfl⟩
    have hsuffix := suffix_isSuffix_file kind ident
    have hstem := hasStem_file hv
    rw [← lastName_of_isSuffix hslash hsuffix] at hstem
    exact ⟨hsuffix, hv, hasStem_lastName_iff.1 hstem⟩
  · rintro ⟨hsuffix, hv, hstem⟩
    have hstem := hasStem_lastName_iff.2 hstem
    rw [lastName_of_isSuffix hslash hsuffix] at hstem
    exact ⟨hv, eq_file_of_hasStem hv hstem hsuffix⟩

end RecordName

namespace Repository

open RecordName

variable {d : Disk} {kind ident : Text}

/-- What stands under the name of a record is scanned as the file of that record, and as no other. -/
theorem scanned_iff (hv : Valid kind ident) (hslash : .char '/' ∉ file kind ident)
    (h : d.holds (Path.ofText (file kind ident)) = true) {f : RecordFile} :
    f ∈ recordFiles d ∧ f.name = file kind ident ↔ f = ⟨kind, ident, file kind ident⟩ := by
  rw [ofText_of_isSuffix hslash (suffix_isSuffix_file kind ident), Disk.holds_iff] at h
  have hmem : ⟨kind, ident, file kind ident⟩ ∈ recordFiles d := mem_recordFiles_iff.2 ⟨hv, rfl, h⟩
  constructor
  · rintro ⟨hf, hname⟩
    exact eq_of_name_eq hf hmem hname
  · rintro rfl
    exact ⟨hmem, rfl⟩

/-- **Names of records.** A kind and an identifier are read back from their stem just when they are
`Valid`, a stem that can be read is the one of what is read, and every other one is refused.  Records
with the same file name are the same; and a repository tells the record from the name of its file,
whatever stands in the identifier, a slash apart, which no name of a file can hold. -/
theorem recordNames_bijective :
    (∀ kind ident, ofStem (stem kind ident) = .ok (kind, ident) ↔ Valid kind ident)
      ∧ (∀ t kind ident, ofStem t = .ok (kind, ident) → stem kind ident = t ∧ Valid kind ident)
      ∧ (∀ t e, ofStem t = .error e
        ↔ e = .recordName t ∧ ∀ kind ident, Valid kind ident → t ≠ stem kind ident)
      ∧ (∀ kind ident kind' ident', Valid kind ident → Valid kind' ident' →
        (file kind ident = file kind' ident' ↔ kind = kind' ∧ ident = ident'))
      ∧ (∀ name kind ident, .char '/' ∉ name → (ofFile? name = some (kind, ident)
        ↔ suffix <:+ name ∧ ofStem (pathStem name) = .ok (kind, ident)))
      ∧ ∀ kind ident (d : Disk), Valid kind ident → .char '/' ∉ file kind ident →
        d.holds (Path.ofText (file kind ident)) = true →
        ∀ f, f ∈ recordFiles d ∧ f.name = file kind ident ↔ f = ⟨kind, ident, file kind ident⟩ := by
  refine ⟨fun kind ident => ?readBack, fun t kind ident h => ?oneStem, fun t e => ofStem_eq_error_iff,
    fun kind ident kind' ident' hv hv' => ?oneFile, fun name kind ident => ofFile?_eq_some_iff_stem,
    fun kind ident d hv hslash h f => scanned_iff hv hslash h⟩
  case readBack =>
    rw [ofStem_eq_ok_iff]
    exact and_iff_left rfl
  case oneStem =>
    obtain ⟨hv, ht⟩ := ofStem_eq_ok_iff.1 h
    exact ⟨ht.symm, hv⟩
  case oneFile =>
    constructor
    · exact fun h => file_inj hv h hv'
    · rintro ⟨rfl, rfl⟩
      rfl

/-- The kind ends as the separator begins, and the identifier begins as an ending and holds a separator
and a further ending. -/
theorem recordNames_bijective_crowded :
    let kind : Text := "my-"
    let ident : Text := ".json-@a.b.json"
    let d : Disk := ⟨[([file kind ident], .file [])]⟩
    Valid kind ident ∧ .char '/' ∉ file kind ident
      ∧ ofStem "my--@.json-@a.b.json" = .ok (kind, ident)
      ∧ ofFile? "my--@.json-@a.b.json.json" = some (kind, ident)
      ∧ ∀ f, f ∈ recordFiles d ∧ f.name = "my--@.json-@a.b.json.json" ↔ f = ⟨kind, ident, file kind ident⟩ := by
  intro kind ident d
  have hv : Valid kind ident := by decide
  have hslash : .char '/' ∉ file kind ident := by decide
  have hstem : ofStem (stem kind ident) = .ok (kind, ident) := (recordNames_bijective.1 kind ident).2 hv
  have hfile : ofFile? (file kind ident) = some (kind, ident) :=
    (recordNames_bijective.2.2.2.2.1 _ kind ident hslash).2 ⟨suffix_isSuffix_file kind ident, rfl⟩
  exact ⟨hv, hslash, hstem, hfile,
    recordNames_bijective.2.2.2.2.2 kind ident d hv hslash (by decide)⟩

end Repository

end RecordStore
