import RecordStore.Proofs.Record
import RecordStore.Proofs.Timestamp

/-!
# RecordStore.Proofs.Header

Headers as records hold them.  A header is `Regular` when its names are plain texts that are not
empty, its revision is a number that is not negative, its other attributes are well formed, and its
times are recordable.  Such a header has the members `Header.recordMembers`, and is read back from
every record that holds them (`Regular.ofMembers_eq`), its kind being a plain word then.  Every
header that is read from a record is regular (`regular_of_ofMembers`).
-/

namespace RecordStore

namespace Schema

theorem name_str {t : Text} (hp : t.Plain) (hne : t ≠ []) : name (.str t) = .ok t := by
  obtain ⟨cs, rfl⟩ := hp
  simp [name, Text.toChars?_ofChars, hne]

theorem plain_of_name {v : Json} {t : Text} (h : name v = .ok t) : t.Plain ∧ t ≠ [] := by
  unfold name at h
  split at h
  · next u =>
    split at h
    · cases h
    · next hchars =>
      split at h
      · cases h
      · next hempty =>
        cases h
        have hsome : t.toChars? ≠ none := by simpa using hchars
        obtain ⟨cs, hcs⟩ := Option.ne_none_iff_exists'.1 hsome
        exact ⟨⟨cs, Text.eq_ofChars_of_toChars? hcs⟩, by simpa using hempty⟩
  · cases h

theorem eq_str_of_name {v : Json} {t : Text} (h : name v = .ok t) : v = .str t := by
  unfold name at h
  split at h
  · split at h
    · cases h
    · split at h <;> cases h
      rfl
  · cases h

theorem revision_int {n : Int} (h : 0 ≤ n) : revision (.int n) = .ok n := by
  have hnot : ¬ n < 0 := by omega
  simp [revision, integer, hnot]

theorem nonneg_of_revision {v : Json} {n : Int} (h : revision v = .ok n) : 0 ≤ n := by
  unfold revision at h
  split at h
  · split at h
    · cases h
    · cases h; omega
  · cases h

theorem parentRevision_ofInt? (p : Option Int) : parentRevision (.ofInt? p) = .ok p := by
  cases p <;> rfl

theorem author_ofText? (a : Option Text) : author (.ofText? a) = .ok a := by
  cases a <;> rfl

end Schema

namespace Header

/-- A header whose fields are what a record holds. -/
structure Regular (h : Header) : Prop where
  ident : h.ident.Plain ∧ h.ident ≠ []
  kind : h.kind.name.Plain ∧ h.kind.name ≠ []
  revision : ∃ n : Int, 0 ≤ n ∧ h.revision = .value n
  parentRevision : ∃ p, h.parentRevision = .value p
  createdAt : ∀ t ∈ h.createdAt, t.Recordable
  modifiedAt : ∀ t ∈ h.modifiedAt, t.Recordable
  createdBy : ∃ a, h.createdBy = .value a
  updatedBy : ∃ a, h.updatedBy = .value a

/-- The members of a header's record. -/
def recordMembers (h : Header) : Members :=
  [("ident", .str h.ident), ("kind", .str h.kind.name), ("revision", h.revisionJson),
    ("parent_revision", h.parentRevision.toJson .ofInt?), ("created_at", timeJson h.createdAt),
    ("modified_at", timeJson h.modifiedAt), ("created_by", h.createdBy.toJson .ofText?),
    ("updated_by", h.updatedBy.toJson .ofText?)]

/-- The header as it is read from its record: its kind is a plain word. -/
def recorded (h : Header) : Header := { h with kind := .word h.kind.name }

@[simp] theorem recorded_kind_name (h : Header) : h.recorded.kind.name = h.kind.name := rfl

@[simp] theorem recorded_recorded (h : Header) : h.recorded.recorded = h.recorded := rfl

@[simp] theorem recordMembers_recorded (h : Header) : h.recorded.recordMembers = h.recordMembers :=
  rfl

theorem eq_recorded_iff {h : Header} : h = h.recorded ↔ h.kind = .word h.kind.name := by
  constructor
  · intro heq
    exact congrArg Header.kind heq
  · intro hkind
    rw [Header.recorded, ← hkind]

theorem Regular.recorded {h : Header} (r : h.Regular) : h.recorded.Regular :=
  ⟨r.ident, r.kind, r.revision, r.parentRevision, r.createdAt, r.modifiedAt, r.createdBy, r.updatedBy⟩

theorem Regular.revision_eq {h : Header} (r : h.Regular) : h.revision = .value h.revisionNumber := by
  obtain ⟨n, -, hrev⟩ := r.revision
  rw [revisionNumber, hrev]
  rfl

theorem Regular.revisionNumber_nonneg {h : Header} (r : h.Regular) : 0 ≤ h.revisionNumber := by
  obtain ⟨n, hn, hrev⟩ := r.revision
  rw [revisionNumber, hrev]
  exact hn

/-- The members of a regular header. -/
theorem Regular.toMembers_eq {h : Header} (r : h.Regular) : h.toMembers = .ok h.recordMembers := by
  obtain ⟨n, hn, hrev⟩ := r.revision
  obtain ⟨p, hparent⟩ := r.parentRevision
  obtain ⟨a, hcreated⟩ := r.createdBy
  obtain ⟨b, hupdated⟩ := r.updatedBy
  have hident := Schema.name_str r.ident.1 r.ident.2
  have hkind := Schema.name_str r.kind.1 r.kind.2
  simp only [toMembers, recordMembers, revisionJson, hrev, hparent, hcreated, hupdated,
    Attribute.toJson, checked, hident, hkind, Schema.revision_int hn]

/-- A regular header is read from every record that holds its members. -/
theorem Regular.ofMembers_eq {h : Header} (r : h.Regular) {ms : Members}
    (hms : ∀ key ∈ fieldNames, ms.get? key = h.recordMembers.get? key) :
    ofMembers ms = .ok h.recorded := by
  obtain ⟨n, hn, hrev⟩ := r.revision
  obtain ⟨p, hparent⟩ := r.parentRevision
  obtain ⟨a, hcreated⟩ := r.createdBy
  obtain ⟨b, hupdated⟩ := r.updatedBy
  have h1 : ms.get? "ident" = some (.str h.ident) := hms _ (by decide)
  have h2 : ms.get? "kind" = some (.str h.kind.name) := hms _ (by decide)
  have h3 : ms.get? "revision" = some h.revisionJson := hms _ (by decide)
  have h4 : ms.get? "parent_revision" = some (h.parentRevision.toJson .ofInt?) := hms _ (by decide)
  have h5 : ms.get? "created_at" = some (timeJson h.createdAt) := hms _ (by decide)
  have h6 : ms.get? "modified_at" = some (timeJson h.modifiedAt) := hms _ (by decide)
  have h7 : ms.get? "created_by" = some (h.createdBy.toJson .ofText?) := hms _ (by decide)
  have h8 : ms.get? "updated_by" = some (h.updatedBy.toJson .ofText?) := hms _ (by decide)
  simp only [ofMembers, field, h1, h2, h3, h4, h5, h6, h7, h8, hrev, hparent, hcreated, hupdated,
    revisionJson, Attribute.toJson, Schema.name_str r.ident.1 r.ident.2,
    Schema.name_str r.kind.1 r.kind.2, Schema.revision_int hn, Schema.parentRevision_ofInt?,
    Schema.author_ofText?, Schema.time_timeJson r.createdAt, Schema.time_timeJson r.modifiedAt]
  simp only [Header.recorded, ← hrev, ← hparent, ← hcreated, ← hupdated]

/-- A field that was read is the default, or a value that passed its check. -/
theorem field_ok {α : Type} {name : Text} {default : Schema.Check α} {check : Json → Schema.Check α}
    {ms : Members} {a : α} (h : field name default check ms = .ok a) :
    default = .ok a ∨ ∃ v, ms.get? name = some v ∧ check v = .ok a := by
  unfold field at h
  split at h
  · exact .inl h
  · next v hv => exact .inr ⟨v, hv, h⟩

/-- The names of a header are the ones that stand in the record. -/
theorem names_of_ofMembers {ms : Members} {h : Header} (hms : ofMembers ms = .ok h) :
    ms.get? "ident" = some (.str h.ident) ∧ ms.get? "kind" = some (.str h.kind.name) := by
  have hname : ∀ {name t : Text}, field name (.error .missing) Schema.name ms = .ok t →
      ms.get? name = some (.str t) := by
    intro name t ht
    rcases field_ok ht with ht | ⟨v, hv, ht⟩
    · cases ht
    · rw [hv, Schema.eq_str_of_name ht]
  unfold ofMembers at hms
  dsimp only at hms
  split at hms
  · next hident hkind _ _ _ _ _ _ =>
    cases hms
    exact ⟨hname hident, hname hkind⟩
  · cases hms

/-- Every header that is read from a record is regular, and its kind is a plain word. -/
theorem regular_of_ofMembers {ms : Members} {h : Header} (hms : ofMembers ms = .ok h) :
    h.Regular ∧ h = h.recorded := by
  unfold ofMembers at hms
  dsimp only at hms
  split at hms
  · next hident hkind hrev hparent hcreated hmodified _ _ =>
    cases hms
    have hname : ∀ {name v : Text}, field name (.error .missing) Schema.name ms = .ok v →
        v.Plain ∧ v ≠ [] := by
      intro name v hv
      rcases field_ok hv with hv | ⟨x, -, hv⟩
      · cases hv
      · exact Schema.plain_of_name hv
    have htime : ∀ {name : Text} {v : Option Timestamp},
        field name (.ok none) Schema.time ms = .ok v → ∀ t ∈ v, t.Recordable := by
      intro name v hv
      rcases field_ok hv with hv | ⟨x, -, hv⟩
      · cases hv; exact nofun
      · exact Schema.recordable_of_time hv
    have hnonneg : ∀ {n : Int}, field "revision" (.ok 0) Schema.revision ms = .ok n → 0 ≤ n := by
      intro n hn
      rcases field_ok hn with hn | ⟨x, -, hn⟩
      · cases hn; decide
      · exact Schema.nonneg_of_revision hn
    exact ⟨⟨hname hident, hname hkind, ⟨_, hnonneg hrev, rfl⟩, ⟨_, rfl⟩, htime hcreated,
      htime hmodified, ⟨_, rfl⟩, ⟨_, rfl⟩⟩, rfl⟩
  · cases hms

end Header

end RecordStore
