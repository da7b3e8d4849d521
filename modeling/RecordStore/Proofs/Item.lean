import RecordStore.Proofs.Header
import RecordStore.Proofs.Payload.Load
import RecordStore.Proofs.Registry

/-!
# RecordStore.Proofs.Item

Items of the bundled kinds as bytes.  An item is `Regular` when its header is and its payload is a
page or a task of the same kind.

* `Regular.decodeItem_bytes`: an item that has bytes is read back from them, its kind being a plain
  word then (`Item.recorded`).
* `regular_of_decodeItem`: every item that is read is regular, whatever the bytes were.
-/

namespace RecordStore

open Procedure

/-! ## Bundled kinds -/

/-- The payload of a bundled kind. -/
inductive Payload.Bundled : Payload → Prop
  | page (p : Page) : Bundled { kind := .page, body := .page p }
  | task (t : Task) : Bundled { kind := .task, body := .task t }

theorem Payload.Bundled.eq {p : Payload} (hp : p.Bundled) : p = { kind := p.kind, body := p.body } := by
  cases hp <;> rfl

namespace Registry

theorem registrations_bundled : bundled.registrations =
    [⟨.page, .page, .fieldUnion false⟩, ⟨.task, .task, .fieldUnion true⟩] := rfl

theorem get_bundled_page :
    bundled.get Kind.page.name = .ok ⟨.page, .page, .fieldUnion false⟩ := rfl

theorem get_bundled_task :
    bundled.get Kind.task.name = .ok ⟨.task, .task, .fieldUnion true⟩ := rfl

/-- There are no kinds but the bundled ones. -/
theorem get_bundled_other {kind : Text} (hp : kind ≠ Kind.page.name) (ht : kind ≠ Kind.task.name) :
    bundled.get kind = .error (.configuration (.unregistered kind)) := by
  have hp : (Kind.page.name == kind) = false := beq_false_of_ne hp.symm
  have ht : (Kind.task.name == kind) = false := beq_false_of_ne ht.symm
  unfold get find?
  rw [registrations_bundled, List.find?_cons, List.find?_cons, List.find?_nil]
  simp only [hp, ht]

/-- The kinds of the bundled registry. -/
theorem get_bundled_ok {kind : Text} {e : Registration} (h : bundled.get kind = .ok e) :
    (kind = Kind.page.name ∧ e = ⟨.page, .page, .fieldUnion false⟩)
      ∨ (kind = Kind.task.name ∧ e = ⟨.task, .task, .fieldUnion true⟩) := by
  by_cases hp : kind = Kind.page.name
  · rw [hp, get_bundled_page] at h
    exact .inl ⟨hp, (Except.ok.inj h).symm⟩
  · by_cases ht : kind = Kind.task.name
    · rw [ht, get_bundled_task] at h
      exact .inr ⟨ht, (Except.ok.inj h).symm⟩
    · rw [get_bundled_other hp ht] at h
      cases h

end Registry

theorem Payload.Bundled.kind_name {p : Payload} (hp : p.Bundled) :
    p.kind.name = Kind.page.name ∨ p.kind.name = Kind.task.name := by
  cases hp with
  | page p => exact .inl rfl
  | task t => exact .inr rfl

theorem Payload.Bundled.get_kind {p : Payload} (hp : p.Bundled) :
    ∃ e, Registry.bundled.get p.kind.name = .ok e := by
  cases hp with
  | page p => exact ⟨_, Registry.get_bundled_page⟩
  | task t => exact ⟨_, Registry.get_bundled_task⟩

/-! ## Regular items -/

namespace Item

/-- An item of a bundled kind whose header is what a record holds. -/
structure Regular (i : Item) : Prop where
  header : i.header.Regular
  payload : i.payload.Bundled
  kind : i.header.kind.name = i.payload.kind.name

/-- The members of an item's record. -/
def record (i : Item) : Members := i.header.recordMembers ++ Payload.bodyFields i.payload.body

/-- The item as it is read from its record. -/
def recorded (i : Item) : Item := { i with header := i.header.recorded }

@[simp] theorem record_recorded (i : Item) : i.recorded.record = i.record := rfl

@[simp] theorem recorded_recorded (i : Item) : i.recorded.recorded = i.recorded := rfl

variable {i : Item}

theorem Regular.recorded (r : i.Regular) : i.recorded.Regular := ⟨r.header.recorded, r.payload, r.kind⟩

theorem clashes_eq_nil {keys : List Text} (h : Header.fieldNames.filter keys.contains = []) :
    Record.clashes keys = [] := by
  rw [Record.clashes, h, List.mergeSort_nil]

/-- The fields of header and payload stand side by side in the record. -/
theorem Regular.flatten_eq (r : i.Regular) :
    Record.flatten i.header i.payload.fields = .ok i.record := by
  have hheader := r.header.toMembers_eq
  obtain ⟨header, payload⟩ := i
  cases r.payload with
  | page p =>
      have hnone : Record.clashes ["name", "text"] = [] := clashes_eq_nil (by decide)
      have hclash : Record.clashes (Payload.fields { kind := .page, body := .page p }).keys = [] :=
        hnone
      simp only [Record.flatten, hclash, hheader]
      rfl
  | task t =>
      have hnone : Record.clashes ["name", "text", "context", "status", "deferred_until"] = [] :=
        clashes_eq_nil (by decide)
      have hclash : Record.clashes (Payload.fields { kind := .task, body := .task t }).keys = [] :=
        hnone
      simp only [Record.flatten, hclash, hheader]
      rfl

theorem Regular.bytes_eq (r : i.Regular) : i.bytes = Record.encode (.obj i.record) := by
  rw [bytes, r.flatten_eq]
  rfl

/-- An item and what is read from its record have the same bytes. -/
theorem Regular.bytes_recorded (r : i.Regular) : i.recorded.bytes = i.bytes := by
  rw [r.recorded.bytes_eq, r.bytes_eq, record_recorded]

end Item

/-! ## Reading -/

section Reading

variable {blob : Bytes} {ms data : Members} {h : Header} {e : Registration}

theorem Item.header_of_make {h : Header} {p : Payload} {i : Item} (hi : Item.make h p = .ok i) :
    i.header = h := by
  unfold Item.make at hi
  split at hi <;> cases hi
  rfl

/-- The payload after loading: the old one when a field is bad. -/
def loadedPayload (kind : Kind) (old : Body) : Except Failure Body → Payload
  | .ok body => { kind, body }
  | .error _ => { kind, body := old }

theorem loaded_eq (kind : Kind) (old : Body) (data : Members) :
    Payload.loaded data { kind, body := old }
      = (Payload.loadBody kind data old).map fun body => { kind, body } := by
  unfold Payload.loaded
  cases Payload.loadBody kind data old <;> rfl

/-- The fields of a record replace those of a payload of a bundled kind. -/
theorem load_yields (kind : Kind) (old : Body) (data : Members) :
    (Payload.load data).Yields { kind, body := old }
      ((Payload.loadBody kind data old).map fun _ => ())
      (loadedPayload kind old (Payload.loadBody kind data old)) := by
  have hputs := Payload.load_puts data { kind, body := old }
  rw [Puts, loaded_eq] at hputs
  cases hbody : Payload.loadBody kind data old <;> rwa [hbody] at hputs

/-- The payload of a record of the same kind is loaded. -/
theorem decodePayload_yields (hd : Record.decode blob = .ok ms)
    (hs : Record.split ms = .ok (h, data)) {kind : Kind} (hk : h.kind.same kind = true) (old : Body) :
    (Payload.decode blob).Yields { kind, body := old }
      ((Payload.loadBody kind data old).map fun _ => ())
      (loadedPayload kind old (Payload.loadBody kind data old)) := by
  have hputs := Payload.decode_puts blob { kind, body := old }
  rw [Puts, Payload.decoded_of_split hd hs hk, loaded_eq] at hputs
  cases hbody : Payload.loadBody kind data old <;> rwa [hbody] at hputs

/-- What is read from a record depends on its body, once header and kind are known. -/
theorem decodeItem_yields (hd : Record.decode blob = .ok ms) (hs : Record.split ms = .ok (h, data))
    (he : Registry.bundled.get h.kind.name = .ok e) :
    (Registry.decodeItem blob .bundled).Yields ()
      ((Payload.loadBody e.policy.kind data e.policy.fresh.body).map fun body =>
        ⟨h, { kind := e.policy.kind, body }⟩) () := by
  obtain ⟨hfresh, hsame, hsame'⟩ : e.policy.fresh = { kind := e.policy.kind, body := e.policy.fresh.body }
      ∧ e.policy.kind.same h.kind = true ∧ h.kind.same e.policy.kind = true := by
    rcases Registry.get_bundled_ok he with ⟨hk, rfl⟩ | ⟨hk, rfl⟩ <;>
      simp [Kind.same, hk, KindPolicy.page, KindPolicy.task]
  have hempty : e.policy.emptyItem h
      = .ok ⟨h, { kind := e.policy.kind, body := e.policy.fresh.body }⟩ := by
    rw [KindPolicy.emptyItem, Item.make, hfresh, if_pos hsame]
  have hdecode := decodePayload_yields hd hs hsame' e.policy.fresh.body
  unfold Registry.decodeItem
  rw [hd]
  refine yields_ofExcept_ok_bind_iff.2 ?_
  rw [hs]
  refine yields_ofExcept_ok_bind_iff.2 ?_
  dsimp only
  rw [he]
  refine yields_ofExcept_ok_bind_iff.2 ?_
  rw [hempty]
  refine yields_ofExcept_ok_bind_iff.2 ?_
  cases hbody : Payload.loadBody e.policy.kind data e.policy.fresh.body with
  | error f =>
      rw [hbody] at hdecode
      exact hdecode.runOn.bind_error
  | ok body =>
      rw [hbody] at hdecode
      exact hdecode.runOn.bind (yields_report_bind_iff.2 (yields_pure _ _))

/-- An item has the header of the record that it is read from, whatever kinds are registered. -/
theorem split_of_decodeItem {r : Registry} {i : Item}
    (hi : (Registry.decodeItem blob r).Yields () (.ok i) ()) :
    ∃ ms data, Record.decode blob = .ok ms ∧ Record.split ms = .ok (i.header, data) := by
  unfold Registry.decodeItem at hi
  obtain ⟨ms, _, hd, hi⟩ := yields_bind_ok_iff.1 hi
  obtain ⟨⟨h, data⟩, _, hs, hi⟩ := yields_bind_ok_iff.1 hi
  obtain ⟨e, _, -, hi⟩ := yields_bind_ok_iff.1 hi
  obtain ⟨empty, _, hempty, hi⟩ := yields_bind_ok_iff.1 hi
  obtain ⟨⟨_, payload⟩, _, -, hi⟩ := yields_bind_ok_iff.1 hi
  have hi := yields_report_bind_iff.1 hi
  cases (yields_pure_iff.1 hi).1
  have hheader : empty.header = h := Item.header_of_make (yields_ofExcept_iff.1 hempty).1.symm
  refine ⟨ms, data, (yields_ofExcept_iff.1 hd).1.symm, ?_⟩
  rw [hheader]
  exact (yields_ofExcept_iff.1 hs).1.symm

/-- What an item is read from. -/
theorem exists_of_decodeItem {i : Item}
    (hi : (Registry.decodeItem blob .bundled).Yields () (.ok i) ()) :
    ∃ ms data e, Record.decode blob = .ok ms ∧ Record.split ms = .ok (i.header, data)
      ∧ Registry.bundled.get i.header.kind.name = .ok e
      ∧ Payload.loadBody e.policy.kind data e.policy.fresh.body = .ok i.payload.body
      ∧ i.payload = { kind := e.policy.kind, body := i.payload.body } := by
  have hall := hi
  unfold Registry.decodeItem at hi
  obtain ⟨ms, _, hd, hi⟩ := yields_bind_ok_iff.1 hi
  obtain ⟨⟨h, data⟩, _, hs, hi⟩ := yields_bind_ok_iff.1 hi
  obtain ⟨e, _, he, -⟩ := yields_bind_ok_iff.1 hi
  have hd := (yields_ofExcept_iff.1 hd).1.symm
  have hs := (yields_ofExcept_iff.1 hs).1.symm
  have he := (yields_ofExcept_iff.1 he).1.symm
  have hitem := (hall.unique (decodeItem_yields hd hs he)).1
  cases hbody : Payload.loadBody e.policy.kind data e.policy.fresh.body with
  | error f => rw [hbody] at hitem; cases hitem
  | ok body =>
      rw [hbody] at hitem
      cases hitem
      exact ⟨ms, data, e, hd, hs, he, hbody, rfl⟩

theorem loadText_of_get? {kind : Kind} {key t : Text} (h : data.get? key = some (.str t)) :
    Payload.loadText kind key data = .ok t := by
  rw [Payload.loadText, Payload.present?, h]

theorem loadStatus_of_get? {s : Status} (h : data.get? "status" = some (.str s.label)) :
    Payload.loadStatus data = .ok s := by
  rw [Payload.loadStatus, Payload.present?, h]
  simp only [Status.ofLabel?_label, Option.elim]

theorem loadDeferral_of_get? {d : Option Date}
    (h : data.get? "deferred_until" = some (Payload.dateJson d)) : Payload.loadDeferral data = .ok d := by
  rw [Payload.loadDeferral, Payload.present?, h]
  cases d with
  | none => rfl
  | some d => simp only [Payload.dateJson, Date.ofText_text]

/-- A body is loaded from a record that holds its fields. -/
theorem loadBody_of_get? {kind : Kind} {old body : Body} (hsort : old.SameSort body)
    (hdata : ∀ key v, (Payload.bodyFields body).get? key = some v → data.get? key = some v) :
    Payload.loadBody kind data old = .ok body := by
  cases old with
  | page old =>
      cases body with
      | task t => cases congrArg List.length hsort
      | page p =>
          exact loadBody_page_iff.2 ⟨p.name, p.text, loadText_of_get? (hdata "name" _ rfl),
            loadText_of_get? (hdata "text" _ rfl), rfl⟩
  | task old =>
      cases body with
      | page p => cases congrArg List.length hsort
      | task t =>
          exact loadBody_task_iff.2 ⟨t.name, t.text, t.context, t.status, t.deferredUntil,
            loadText_of_get? (hdata "name" _ rfl), loadText_of_get? (hdata "text" _ rfl),
            loadText_of_get? (hdata "context" _ rfl), loadStatus_of_get? (hdata "status" _ rfl),
            loadDeferral_of_get? (hdata "deferred_until" _ rfl), rfl⟩

/-- The payload that is loaded from a record is one of a bundled kind. -/
theorem bundled_of_loadBody {body : Body} (he : Registry.bundled.get h.kind.name = .ok e)
    (hbody : Payload.loadBody e.policy.kind data e.policy.fresh.body = .ok body) :
    Payload.Bundled { kind := e.policy.kind, body } ∧ h.kind.name = e.policy.kind.name := by
  rcases Registry.get_bundled_ok he with ⟨hk, rfl⟩ | ⟨hk, rfl⟩
  · obtain ⟨name, text, -, -, rfl⟩ := loadBody_page_iff.1 hbody
    exact ⟨.page _, hk⟩
  · obtain ⟨name, text, context, status, deferral, -, -, -, -, -, rfl⟩ := loadBody_task_iff.1 hbody
    exact ⟨.task _, hk⟩

/-- **Every item that is read is regular**, and its kind is a plain word. -/
theorem regular_of_decodeItem {i : Item}
    (hi : (Registry.decodeItem blob .bundled).Yields () (.ok i) ()) : i.Regular ∧ i = i.recorded := by
  obtain ⟨ms, data, e, -, hs, he, hbody, hpayload⟩ := exists_of_decodeItem hi
  obtain ⟨hheader, hrecorded⟩ := Header.regular_of_ofMembers (header_of_split hs).1
  obtain ⟨hbundled, hkind⟩ := bundled_of_loadBody he hbody
  rw [← hpayload] at hbundled
  refine ⟨⟨hheader, hbundled, by rw [hkind, hpayload]⟩, ?_⟩
  rw [Item.recorded, ← hrecorded]

end Reading

/-! ## Round trip -/

namespace Item

variable {i : Item} {blob : Bytes}

/-- The keys of the records of a bundled kind. -/
theorem keys_record (i : Item) : i.record.keys = Header.fieldNames ++ match i.payload.body with
    | .page _ => ["name", "text"]
    | .task _ => ["name", "text", "context", "status", "deferred_until"] := by
  rw [record]
  cases i.payload.body <;> rfl

theorem scalar_ofInt? (p : Option Int) : Record.Scalar (.ofInt? p) := by
  cases p <;> trivial

theorem scalar_ofText? (a : Option Text) : Record.Scalar (.ofText? a) := by
  cases a <;> trivial

theorem scalar_timeJson (t : Option Timestamp) : Record.Scalar (Header.timeJson t) := by
  cases t <;> trivial

theorem scalar_dateJson (d : Option Date) : Record.Scalar (Payload.dateJson d) := by
  cases d <;> trivial

theorem scalar_bodyFields (b : Body) : ∀ m ∈ Payload.bodyFields b, Record.Scalar m.2 := by
  intro m hm
  cases b with
  | page p =>
      simp only [Payload.bodyFields, List.mem_cons, List.not_mem_nil, or_false] at hm
      rcases hm with rfl | rfl <;> trivial
  | task t =>
      simp only [Payload.bodyFields, List.mem_cons, List.not_mem_nil, or_false] at hm
      rcases hm with rfl | rfl | rfl | rfl | rfl
      case inr.inr.inr.inr => exact scalar_dateJson _
      all_goals trivial

theorem Regular.flat (r : i.Regular) : Record.Flat i.record := by
  obtain ⟨n, -, hrev⟩ := r.header.revision
  obtain ⟨p, hparent⟩ := r.header.parentRevision
  obtain ⟨a, hcreated⟩ := r.header.createdBy
  obtain ⟨b, hupdated⟩ := r.header.updatedBy
  have hkeys : i.record.keys.Nodup ∧ ∀ key ∈ i.record.keys, key.Plain := by
    rw [keys_record]
    cases i.payload.body <;> dsimp only <;> exact ⟨by decide, by decide⟩
  refine ⟨hkeys.1, fun m hm => hkeys.2 m.1 (List.mem_map_of_mem hm), fun m hm => ?_⟩
  rcases List.mem_append.1 hm with hm | hm
  · simp only [Header.recordMembers, Header.revisionJson, hrev, hparent, hcreated, hupdated,
      Attribute.toJson, List.mem_cons, List.not_mem_nil, or_false] at hm
    rcases hm with rfl | rfl | rfl | rfl | rfl | rfl | rfl | rfl
    · trivial
    · trivial
    · trivial
    · exact scalar_ofInt? p
    · exact scalar_timeJson _
    · exact scalar_timeJson _
    · exact scalar_ofText? a
    · exact scalar_ofText? b
  · exact scalar_bodyFields _ m hm

/-- The header of a regular item's record. -/
theorem Regular.split_sorted (r : i.Regular) :
    Record.split (Json.sortByKey i.record)
      = .ok (i.header.recorded, Record.payloadPart (Json.sortByKey i.record)) := by
  have f := r.flat
  have hplain : (Record.payloadPart (Json.sortByKey i.record)).any (fun m => m.1.toChars?.isNone)
      = false := by
    rw [List.any_eq_false]
    intro m hm
    obtain ⟨cs, hcs⟩ := Text.plain_iff_toChars?.1 (f.sorted.plain m (List.mem_of_mem_filter hm))
    simp [hcs]
  have hget : ∀ key ∈ Header.fieldNames,
      (Json.sortByKey i.record).get? key = i.header.recordMembers.get? key := by
    intro key hkey
    have hmem : key ∈ i.header.recordMembers.keys := hkey
    obtain ⟨v, hv⟩ : ∃ v, i.header.recordMembers.get? key = some v :=
      Option.ne_none_iff_exists'.1 fun hnone => Members.get?_eq_none_iff.1 hnone hmem
    rw [f.get?_sortByKey, record, Members.get?_append, hv]
    rfl
  simp only [Record.split, hplain, r.header.ofMembers_eq hget, Bool.false_eq_true, if_false]

/-- A field of a body is no field of the header. -/
theorem isField_of_get? {b : Body} {key : Text} {v : Json} (h : (Payload.bodyFields b).get? key = some v) :
    Header.isField key = false := by
  have hmem : key ∈ (Payload.bodyFields b).keys := by
    by_contra hnot
    rw [Members.get?_eq_none_iff.2 hnot] at h
    cases h
  cases b with
  | page p =>
      have hkeys : ∀ key ∈ (["name", "text"] : List Text), Header.isField key = false := by decide
      exact hkeys key hmem
  | task t =>
      have hkeys : ∀ key ∈ (["name", "text", "context", "status", "deferred_until"] : List Text),
          Header.isField key = false := by decide
      exact hkeys key hmem

/-- What is no field of the header is a field of the payload. -/
theorem get?_record {key : Text} (h : Header.isField key = false) :
    i.record.get? key = (Payload.bodyFields i.payload.body).get? key := by
  have hnone : i.header.recordMembers.get? key = none := by
    refine Members.get?_eq_none_iff.2 fun hmem => ?_
    have hnames : key ∈ Header.fieldNames := hmem
    simp [Header.isField, hnames] at h
  rw [record, Members.get?_append, hnone, Option.none_or]

/-- The fields of a regular item's payload are loaded from its record. -/
theorem Regular.loadBody_eq (r : i.Regular) {data : Members} {e : Registration}
    (hdata : ∀ key, Header.isField key = false → data.get? key = i.record.get? key)
    (he : Registry.bundled.get i.header.kind.name = .ok e) :
    Payload.loadBody e.policy.kind data e.policy.fresh.body = .ok i.payload.body
      ∧ i.payload = { kind := e.policy.kind, body := i.payload.body } := by
  have hkind := r.kind
  have hget : ∀ key v, (Payload.bodyFields i.payload.body).get? key = some v →
      data.get? key = some v := by
    intro key v hv
    have hfield := isField_of_get? hv
    rw [hdata key hfield, get?_record hfield, hv]
  obtain ⟨header, payload⟩ := i
  cases r.payload with
  | page p =>
      have hne : header.kind.name = Kind.page.name := hkind
      rw [hne, Registry.get_bundled_page] at he
      cases he
      exact ⟨loadBody_of_get? rfl hget, rfl⟩
  | task t =>
      have hne : header.kind.name = Kind.task.name := hkind
      rw [hne, Registry.get_bundled_task] at he
      cases he
      exact ⟨loadBody_of_get? rfl hget, rfl⟩

/-- **Items.** An item that has bytes is read back from them. -/
theorem Regular.decodeItem_bytes (r : i.Regular) (h : i.bytes = .ok blob) :
    (Registry.decodeItem blob .bundled).Yields () (.ok i.recorded) () := by
  rw [r.bytes_eq] at h
  have f := r.flat
  have hd := f.decode_encode h
  have hs := r.split_sorted
  have hdata : ∀ key, Header.isField key = false →
      (Record.payloadPart (Json.sortByKey i.record)).get? key = i.record.get? key := by
    intro key hkey
    simp [Record.get?_payloadPart, hkey, f.get?_sortByKey]
  obtain ⟨e, he⟩ : ∃ e, Registry.bundled.get i.header.kind.name = .ok e := by
    rw [r.kind]
    exact r.payload.get_kind
  obtain ⟨hbody, hpayload⟩ := r.loadBody_eq hdata he
  have hall := decodeItem_yields hd hs he
  rw [hbody] at hall
  rw [Item.recorded, hpayload]
  exact hall

end Item

end RecordStore
