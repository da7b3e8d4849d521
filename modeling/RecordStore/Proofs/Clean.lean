import Mathlib
import RecordStore.Proofs.Store

/-!
# RecordStore.Proofs.Clean

Which items have bytes.  A regular item has bytes when its texts are plain (`Item.Clean`) and its
revisions are short (`Header.Short`), and only then (`Item.Regular.bytes_ok_iff`).  Stamps, input and
actions keep an item clean.
-/

namespace RecordStore

/-- A body without lone surrogates. -/
def Body.Plain : Body → Prop
  | .page p => p.name.Plain ∧ p.text.Plain
  | .task t => t.name.Plain ∧ t.text.Plain ∧ t.context.Plain

/-- An author without lone surrogates, or none. -/
def PlainAuthor (a : Attribute (Option Text)) : Prop := ∀ t, a = .value (some t) → t.Plain

/-- The revisions of the header have no more digits than a numeral may have. -/
structure Header.Short (h : Header) : Prop where
  revision : ∀ n, h.revision = .value n → n.natAbs < 10 ^ Json.digitLimit
  parentRevision : ∀ n, h.parentRevision = .value (some n) → n.natAbs < 10 ^ Json.digitLimit

/-- An item without lone surrogates. -/
structure Item.Clean (i : Item) : Prop where
  createdBy : PlainAuthor i.header.createdBy
  updatedBy : PlainAuthor i.header.updatedBy
  body : i.payload.body.Plain

section Bytes

open Record (Storable)

variable {i : Item} {blob : Bytes}

theorem storable_int_iff {n : Int} : Storable (.int n) ↔ n.natAbs < 10 ^ Json.digitLimit :=
  Nat.length_toDigits_le_iff (by decide) (by decide)

theorem storable_int_of_nonneg {n : Int} (hn : 0 ≤ n) :
    Storable (.int n) ↔ n < 10 ^ Json.digitLimit := by
  rw [storable_int_iff, ← Int.ofNat_lt, Int.natAbs_of_nonneg hn, Int.natCast_pow]
  exact Iff.rfl

theorem storable_str_iff {t : Text} : Storable (.str t) ↔ t.Plain := Iff.rfl

theorem plainAuthor_iff {a : Option Text} : PlainAuthor (.value a) ↔ Storable (.ofText? a) := by
  cases a with
  | none => simp [PlainAuthor, Json.ofText?, Storable]
  | some t => simp [PlainAuthor, Json.ofText?, Storable]

theorem storable_ofInt? {p : Option Int} :
    Storable (.ofInt? p) ↔ ∀ n, p = some n → n.natAbs < 10 ^ Json.digitLimit := by
  cases p with
  | none => simp [Json.ofInt?, Storable]
  | some n =>
      rw [Json.ofInt?, storable_int_iff]
      simp

/-- Revisions are short when they can be stored. -/
theorem Header.short_iff {h : Header} {n : Int} {p : Option Int} (hrev : h.revision = .value n)
    (hparent : h.parentRevision = .value p) : h.Short ↔ Storable (.int n) ∧ Storable (.ofInt? p) := by
  rw [storable_int_iff, storable_ofInt?]
  constructor
  · intro hs
    exact ⟨hs.revision n hrev, fun m hm => hs.parentRevision m (hm ▸ hparent)⟩
  · rintro ⟨hn, hp⟩
    refine ⟨fun m hm => ?_, fun m hm => ?_⟩
    · cases hrev.symm.trans hm
      exact hn
    · cases hparent.symm.trans hm
      exact hp m rfl

theorem storable_timeJson (t : Option Timestamp) : Storable (Header.timeJson t) := by
  cases t with
  | none => trivial
  | some t => exact ⟨_, rfl⟩

theorem storable_dateJson (d : Option Date) : Storable (Payload.dateJson d) := by
  cases d with
  | none => trivial
  | some d => exact ⟨_, rfl⟩

theorem plain_label (s : Status) : s.label.Plain := by
  cases s <;> exact ⟨_, rfl⟩

theorem Body.plain_iff {b : Body} : b.Plain ↔ ∀ m ∈ Payload.bodyFields b, Storable m.2 := by
  cases b with
  | page p => simp [Body.Plain, Payload.bodyFields, storable_str_iff]
  | task t =>
      simp [Body.Plain, Payload.bodyFields, storable_str_iff, plain_label, storable_dateJson]

/-- The members of a header can be stored when its authors are plain and its revisions are short. -/
theorem Header.Regular.storable_iff {h : Header} (r : h.Regular) :
    (∀ m ∈ h.recordMembers, Storable m.2) ↔
      PlainAuthor h.createdBy ∧ PlainAuthor h.updatedBy ∧ h.Short := by
  obtain ⟨a, hcreated⟩ := r.createdBy
  obtain ⟨b, hupdated⟩ := r.updatedBy
  obtain ⟨n, -, hrev⟩ := r.revision
  obtain ⟨p, hparent⟩ := r.parentRevision
  have hrevision : h.revisionJson = .int n := by rw [revisionJson, hrev]; rfl
  have hparentJson : h.parentRevision.toJson .ofInt? = .ofInt? p := by rw [hparent]; rfl
  have hcreatedJson : h.createdBy.toJson .ofText? = .ofText? a := by rw [hcreated]; rfl
  have hupdatedJson : h.updatedBy.toJson .ofText? = .ofText? b := by rw [hupdated]; rfl
  rw [short_iff hrev hparent, hcreated, hupdated, plainAuthor_iff, plainAuthor_iff]
  simp only [recordMembers, hrevision, hparentJson, hcreatedJson, hupdatedJson, List.forall_mem_cons]
  constructor
  · rintro ⟨-, -, hn, hp, -, -, ha, hb, -⟩
    exact ⟨ha, hb, hn, hp⟩
  · rintro ⟨ha, hb, hn, hp⟩
    exact ⟨r.ident.1, r.kind.1, hn, hp, storable_timeJson _, storable_timeJson _, ha, hb, by simp⟩

/-- The parent of a revision in order is no longer than the revision. -/
theorem Header.Counted.short_iff {h : Header} (hc : h.Counted) :
    h.Short ↔ h.revisionNumber < 10 ^ Json.digitLimit := by
  obtain ⟨n, hn, hrev, hparent⟩ := hc
  have hnumber : h.revisionNumber = n := by simp [revisionNumber, hrev, Attribute.get?]
  rw [hnumber, ← storable_int_of_nonneg (by omega)]
  constructor
  · intro hs
    exact storable_int_iff.2 (hs.revision n hrev)
  · intro hs
    refine ⟨fun m hm => ?_, fun m hm => ?_⟩
    · cases hrev.symm.trans hm
      exact storable_int_iff.1 hs
    · rcases hparent with hp | hp
      · cases hp.symm.trans hm
      · cases hp.symm.trans hm
        have hle : (n - 1).natAbs ≤ n.natAbs := by omega
        exact Nat.lt_of_le_of_lt hle (storable_int_iff.1 hs)

/-- The members of a regular item can be stored when it is clean and its revisions are short. -/
theorem Item.Regular.storable_iff (r : i.Regular) :
    (∀ m ∈ i.record, Storable m.2) ↔ i.Clean ∧ i.header.Short := by
  rw [record, List.forall_mem_append, r.header.storable_iff, ← Body.plain_iff]
  constructor
  · rintro ⟨⟨hcreated, hupdated, hshort⟩, hbody⟩
    exact ⟨⟨hcreated, hupdated, hbody⟩, hshort⟩
  · rintro ⟨c, hshort⟩
    exact ⟨⟨c.createdBy, c.updatedBy, hshort⟩, c.body⟩

/-- Which regular items have bytes. -/
theorem Item.Regular.bytes_ok_iff (r : i.Regular) :
    (∃ blob, i.bytes = .ok blob) ↔ i.Clean ∧ i.header.Short := by
  rw [r.bytes_eq, r.flat.encode_ok_iff, r.storable_iff]

theorem ne_int_of_mem_bodyFields {b : Body} {m : Text × Json} (hm : m ∈ Payload.bodyFields b) (k : Int) :
    m.2 ≠ .int k := by
  intro hk
  cases b with
  | page p =>
      simp only [Payload.bodyFields, List.mem_cons, List.not_mem_nil, or_false] at hm
      rcases hm with rfl | rfl <;> cases hk
  | task t =>
      simp only [Payload.bodyFields, List.mem_cons, List.not_mem_nil, or_false] at hm
      rcases hm with rfl | rfl | rfl | rfl | rfl
      case inr.inr.inr.inr => cases hd : t.deferredUntil <;> rw [hd] at hk <;> cases hk
      all_goals cases hk

/-- The numbers in a record are the revisions. -/
theorem Item.Regular.digitsWithin_iff (r : i.Regular) :
    (Json.obj i.record).digitsWithin Json.digitLimit = true ↔ i.header.Short := by
  obtain ⟨n, -, hrev⟩ := r.header.revision
  obtain ⟨p, hparent⟩ := r.header.parentRevision
  obtain ⟨a, hcreated⟩ := r.header.createdBy
  obtain ⟨b, hupdated⟩ := r.header.updatedBy
  have hrevision : i.header.revisionJson = .int n := by rw [Header.revisionJson, hrev]; rfl
  have hparentJson : i.header.parentRevision.toJson .ofInt? = .ofInt? p := by rw [hparent]; rfl
  have hcreatedJson : i.header.createdBy.toJson .ofText? = .ofText? a := by rw [hcreated]; rfl
  have hupdatedJson : i.header.updatedBy.toJson .ofText? = .ofText? b := by rw [hupdated]; rfl
  rw [Record.digitsWithin_obj r.flat.scalar, Header.short_iff hrev hparent, record,
    List.forall_mem_append, Header.recordMembers, hrevision, hparentJson, hcreatedJson, hupdatedJson]
  simp only [List.forall_mem_cons]
  constructor
  · rintro ⟨⟨-, -, hn, hp, -⟩, -⟩
    refine ⟨hn n rfl, ?_⟩
    cases p with
    | none => trivial
    | some q => exact hp q rfl
  · rintro ⟨hn, hp⟩
    refine ⟨⟨fun k hk => ?_, fun k hk => ?_, fun k hk => ?_, fun k hk => ?_, fun k hk => ?_,
      fun k hk => ?_, fun k hk => ?_, fun k hk => ?_, by simp⟩,
      fun m hm k hk => absurd hk (ne_int_of_mem_bodyFields hm k)⟩
    · cases hk
    · cases hk
    · cases hk
      exact hn
    · rw [hk] at hp
      exact hp
    · cases ht : i.header.createdAt <;> rw [ht] at hk <;> cases hk
    · cases ht : i.header.modifiedAt <;> rw [ht] at hk <;> cases hk
    · cases a <;> cases hk
    · cases b <;> cases hk

/-- How a regular item fails to have bytes: its revision is too long, or else it has a lone
surrogate. -/
theorem Item.Regular.bytes_error (r : i.Regular) {f : Failure} (h : i.bytes = .error f) :
    f = .longInteger ∧ ¬ i.header.Short ∨ (∃ x, f = .unencodable x) ∧ i.header.Short := by
  rw [r.bytes_eq, Record.encode] at h
  split at h
  · next hdigits =>
    obtain ⟨x, hx⟩ : ∃ x, f = .unencodable x := by
      cases hutf : Utf8.encode ((Json.obj i.record).sortKeys.write .unicode ++ [.char '\n']) with
      | error x =>
          rw [hutf] at h
          exact ⟨x, (Except.error.inj h).symm⟩
      | ok blob =>
          rw [hutf] at h
          cases h
    exact .inr ⟨⟨x, hx⟩, r.digitsWithin_iff.1 hdigits⟩
  · next hdigits => exact .inl ⟨(Except.error.inj h).symm, fun hs => hdigits (r.digitsWithin_iff.2 hs)⟩

/-- A clean item has bytes, unless its revision is too long. -/
theorem Item.Regular.bytes_of_clean (r : i.Regular) (hc : i.header.Counted) (c : i.Clean) :
    if i.header.revisionNumber < 10 ^ Json.digitLimit then ∃ blob, i.bytes = .ok blob
      else i.bytes = .error .longInteger := by
  split
  · next hlimit => exact r.bytes_ok_iff.2 ⟨c, hc.short_iff.2 hlimit⟩
  · next hlimit =>
    cases hb : i.bytes with
    | ok blob => exact absurd (hc.short_iff.1 (r.bytes_ok_iff.1 ⟨blob, hb⟩).2) hlimit
    | error f =>
        rcases r.bytes_error hb with ⟨rfl, -⟩ | ⟨-, hs⟩
        · rfl
        · exact absurd (hc.short_iff.1 hs) hlimit

/-- An item that has bytes is clean. -/
theorem Item.Regular.clean (r : i.Regular) (hb : i.bytes = .ok blob) : i.Clean :=
  (r.bytes_ok_iff.1 ⟨blob, hb⟩).1

end Bytes

/-! ## Keeping items clean -/

section Clean

variable {i : Item} {user : Option Text} {form : Form}

theorem Item.Clean.recorded (c : i.Clean) : i.recorded.Clean := ⟨c.createdBy, c.updatedBy, c.body⟩

theorem Item.Clean.stamped (c : i.Clean) (hu : ∀ u ∈ user, u.Plain) (now : Timestamp) :
    (i.stamped user now).Clean := by
  have hauthor : PlainAuthor (.value user) := by
    intro t ht
    exact hu t (Attribute.value.inj ht)
  refine ⟨?_, hauthor, c.body⟩
  simp only [Item.stamped, Header.stamped]
  split
  · exact hauthor
  · exact c.createdBy

theorem Item.clean_fresh {kind : Text} {e : Registration} (he : Registry.bundled.get kind = .ok e)
    (ident : Text) (hu : ∀ u ∈ user, u.Plain) : (Item.fresh e.policy ident user).Clean := by
  have hauthor : ∀ {a : Option Text}, (∀ u ∈ a, u.Plain) → PlainAuthor (.value a) := by
    intro a ha t ht
    exact ha t (Attribute.value.inj ht)
  have hempty : Text.Plain [] := ⟨[], rfl⟩
  rcases Registry.get_bundled_ok he with ⟨-, rfl⟩ | ⟨-, rfl⟩
  · exact ⟨hauthor hu, hauthor (by simp), hempty, hempty⟩
  · exact ⟨hauthor hu, hauthor (by simp), hempty, hempty, hempty⟩

/-- The fields of a form of plain texts are plain. -/
theorem Form.plain_optional (hform : ∀ field ∈ form, field.2.Plain) (name : Text) :
    (form.optional name).Plain := by
  unfold Form.optional
  cases hl : form.lookup name with
  | none => exact ⟨[], rfl⟩
  | some t =>
      obtain ⟨l₁, l₂, heq, -⟩ := List.lookup_eq_some_iff.1 hl
      exact hform (name, t) (heq ▸ by simp)

theorem Item.Clean.entered (c : i.Clean) (hform : ∀ field ∈ form, field.2.Plain) :
    Item.Clean { i with payload := i.payload.entered form } := by
  have hplain := Form.plain_optional hform
  refine ⟨c.createdBy, c.updatedBy, ?_⟩
  unfold Payload.entered
  split
  · exact ⟨hplain _, hplain _⟩
  · exact ⟨hplain _, hplain _, hplain _⟩

/-- An action changes nothing but the status or the deferral of a task. -/
theorem Payload.actOn_keeps {action : TaskAction} {input : Form} {t t' : Task}
    (h : Payload.actOn action input t = .ok t') :
    t'.name = t.name ∧ t'.text = t.text ∧ t'.context = t.context := by
  cases action with
  | done | reopen | start =>
      cases h
      exact ⟨rfl, rfl, rfl⟩
  | defer =>
      obtain ⟨raw, -, h⟩ := Except.bind_eq_ok_iff.1 h
      obtain ⟨d, -, h⟩ := Except.bind_eq_ok_iff.1 h
      cases h
      exact ⟨rfl, rfl, rfl⟩

theorem Item.Clean.acted (c : i.Clean) {action : TaskAction} {input : Form} {i' : Item}
    (h : i.acted action input = .ok i') : i'.Clean := by
  obtain ⟨hcreated, hupdated, hbody⟩ := c
  unfold Item.acted at h
  split at h
  · cases h
  · next t ht =>
    cases hact : Payload.actOn action input t with
    | error e => rw [hact] at h; cases h
    | ok t' =>
        rw [hact] at h
        cases h
        rw [ht] at hbody
        obtain ⟨hname, htext, hcontext⟩ := Payload.actOn_keeps hact
        exact ⟨hcreated, hupdated, hname ▸ hbody.1, htext ▸ hbody.2.1, hcontext ▸ hbody.2.2⟩

end Clean

/-! ## A page that was never written -/

/-- A page named `n` that was never written. -/
def unwrittenPage (ident text : Text) : Item where
  header := Header.fresh ident (.word Kind.page.name)
  payload := { kind := .page, body := .page { name := "n", text } }

/-- The record of such a page, the identifier and the text given as they stand in JSON. -/
def pageRecord (ident text : String) : Bytes :=
  Utf8.encodeChars ("\x7b\"ident\":\"" ++ ident ++ "\",\"kind\":\"simple\",\"name\":\"n\",\"text\":\""
    ++ text ++ "\"\x7d").toList

/-- The members of that record. -/
def pageMembers (ident text : Text) : Members :=
  [("ident", .str ident), ("kind", .str Kind.page.name), ("name", .str "n"), ("text", .str text)]

theorem decodeItem_pageRecord {identJson textJson : String} {ident text : Text}
    (hd : Record.decode (pageRecord identJson textJson) = .ok (pageMembers ident text))
    (hs : Record.split (pageMembers ident text)
      = .ok (Header.fresh ident (.word Kind.page.name), [("name", .str "n"), ("text", .str text)])) :
    (Registry.decodeItem (pageRecord identJson textJson) .bundled).Yields ()
      (.ok (unwrittenPage ident text)) () :=
  decodeItem_yields hd hs Registry.get_bundled_page

/-- The record of a page with an identifier that no name of a file can hold. -/
theorem decodeItem_nullPage : (Registry.decodeItem (pageRecord "a\\u0000b" "t") .bundled).Yields ()
    (.ok (unwrittenPage "a\x00b" "t")) () :=
  decodeItem_pageRecord (by cbv) rfl

theorem clean_unwrittenPage {ident text : Text} (h : text.Plain) : (unwrittenPage ident text).Clean :=
  ⟨nofun, nofun, Text.plain_ofString "n", h⟩

/-- The page as it is after a user updated it. -/
def updatedPage (ident text : Text) (form : Form) (user : Option Text) (now : Timestamp) : Item :=
  let page := unwrittenPage ident text
  Item.stamped user now { page with payload := page.payload.entered form }

section Updated

variable {ident text : Text} {form : Form} {user : Option Text} {now : Timestamp}

theorem regular_updatedPage (r : (unwrittenPage ident text).Regular) (hnow : now.Recordable) :
    (updatedPage ident text form user now).Regular := ((r.entered form).stamped user hnow).1

/-- An updated page has bytes, if its texts and those of the form are plain. -/
theorem exists_bytes_updatedPage (r : (unwrittenPage ident text).Regular) (htext : text.Plain)
    (hform : ∀ field ∈ form, field.2.Plain) (huser : ∀ u ∈ user, u.Plain) (hnow : now.Recordable) :
    ∃ blob, (updatedPage ident text form user now).bytes = .ok blob := by
  have hclean : (updatedPage ident text form user now).Clean :=
    ((clean_unwrittenPage htext).entered hform).stamped huser now
  have hshort : Header.Short ((unwrittenPage ident text).header.stamped user now) := by
    refine ⟨fun n hn => ?_, fun n hn => ?_⟩
    · cases hn
      exact Nat.one_lt_pow (by decide) (by decide)
    · cases hn
  exact (regular_updatedPage r hnow).bytes_ok_iff.2 ⟨hclean, hshort⟩

end Updated

end RecordStore
