import RecordStore.Proofs.Procedure
import RecordStore.Proofs.Record
import RecordStore.Registry

/-!
# RecordStore.Proofs.Payload.Load

Loading a record into a payload that holds something already.  What comes of it is computed first
(`Payload.decoded`) and put in place at the end, so a record that cannot be loaded changes nothing; and
what is computed depends on the fields that the payload has, not on what they hold
(`decode_forgets`).  Every kind is meant, with any further fields.
-/

namespace RecordStore

open Procedure

/-! ## Procedures that replace a state at their end -/

/-- A procedure that ends by putting a state that is given, or fails and leaves the old one. -/
def Procedure.Puts {σ : Type} (p : Procedure σ Unit) (s : σ) (x : Except Failure σ) : Prop :=
  p.Yields s (x.map fun _ => ()) (x.toOption.getD s)

section Puts

variable {σ α : Type} {s : σ}

theorem Procedure.puts_state_bind {f : σ → Procedure σ Unit} {x : Except Failure σ}
    (h : (f s).Puts s x) : (Procedure.state >>= f).Puts s x :=
  yields_state_bind_iff.2 h

theorem Procedure.puts_ofExcept_bind {x : Except Failure α} {f : α → Procedure σ Unit}
    {g : α → Except Failure σ} (h : ∀ a, (f a).Puts s (g a)) :
    (Procedure.ofExcept x >>= f).Puts s (x >>= g) := by
  cases x with
  | error e => exact (yields_ofExcept (.error e) s).bind_error
  | ok a => exact yields_ofExcept_ok_bind_iff.2 (h a)

end Puts

/-! ## Bodies -/

section Body

variable {ms data : Members} {h : Header}

theorem header_of_split (hs : Record.split ms = .ok (h, data)) :
    Header.ofMembers ms = .ok h ∧ data = Record.payloadPart ms := by
  unfold Record.split at hs
  dsimp only at hs
  split at hs
  · cases hs
  · split at hs
    · next hof => cases hs; exact ⟨hof, rfl⟩
    · cases hs

/-- The body of a page is a page. -/
theorem loadBody_page_iff {kind : Kind} {old : Page} {body : Body} :
    Payload.loadBody kind data (.page old) = .ok body ↔
      ∃ name text, Payload.loadText kind "name" data = .ok name
        ∧ Payload.loadText kind "text" data = .ok text ∧ body = .page { name, text } := by
  simp [Payload.loadBody, Except.bind_eq_ok_iff, pure, Except.pure, @eq_comm _ body]

/-- The body of a task is a task. -/
theorem loadBody_task_iff {kind : Kind} {old : Task} {body : Body} :
    Payload.loadBody kind data (.task old) = .ok body ↔
      ∃ name text context status deferredUntil, Payload.loadText kind "name" data = .ok name
        ∧ Payload.loadText kind "text" data = .ok text
        ∧ Payload.loadText kind "context" data = .ok context
        ∧ Payload.loadStatus data = .ok status ∧ Payload.loadDeferral data = .ok deferredUntil
        ∧ body = .task { name, text, context, status, deferredUntil } := by
  simp [Payload.loadBody, Except.bind_eq_ok_iff, pure, Except.pure, @eq_comm _ body]

/-- Two bodies of one sort: they have the same fields. -/
def Body.SameSort (a b : Body) : Prop := (Payload.bodyFields a).keys = (Payload.bodyFields b).keys

end Body

namespace Payload

variable {p q : Payload} {data ms : Members} {kind : Kind} {b c : Body}
  {extras extras' : List (ExtraField × Json)}

/-! ## What is loaded -/

/-- The payload that is loaded from the fields of a record. -/
def loaded (data : Members) (p : Payload) : Except Failure Payload := do
  let body ← loadBody p.kind data p.body
  let extras ← loadExtras p.kind data p.extras
  return { p with body, extras }

/-- The payload that is loaded from a stored record. -/
def decoded (blob : Bytes) (p : Payload) : Except Failure Payload := do
  let members ← Record.decode blob
  let (header, data) ← Record.split members
  if header.kind.same p.kind then
    loaded data p
  else
    .error (.deserialization (.wrongKind header.kind.name p.kind header.ident))

/-- The payload of a record of the same kind is loaded. -/
theorem decoded_of_split {blob : Bytes} {h : Header} (hd : Record.decode blob = .ok ms)
    (hs : Record.split ms = .ok (h, data)) (hk : h.kind.same p.kind = true) :
    decoded blob p = loaded data p := by
  unfold decoded
  rw [hd]
  change (Record.split ms >>= _) = _
  rw [hs]
  exact if_pos hk

theorem load_puts (data : Members) (p : Payload) : (load data).Puts p (loaded data p) :=
  puts_state_bind <| puts_ofExcept_bind fun _ => puts_ofExcept_bind fun _ => yields_put _ p

theorem decode_puts (blob : Bytes) (p : Payload) : (decode blob).Puts p (decoded blob p) := by
  refine puts_ofExcept_bind fun members => puts_ofExcept_bind fun ⟨header, data⟩ => ?_
  refine puts_state_bind ?_
  dsimp only
  split
  · exact load_puts data p
  · exact yields_fail _ p

theorem decode_yields_ok {blob : Bytes} (h : decoded blob p = .ok q) :
    (decode blob).Yields p (.ok ()) q := by
  have hputs := decode_puts blob p
  rwa [h] at hputs

theorem decode_yields_error {blob : Bytes} {e : Failure} (h : decoded blob p = .error e) :
    (decode blob).Yields p (.error e) p := by
  have hputs := decode_puts blob p
  rwa [h] at hputs

/-! ## Payloads of one kind -/

/-- Two payloads of one kind: they have the same fields, whatever these hold. -/
structure SameFields (p q : Payload) : Prop where
  kind : p.kind = q.kind
  body : p.body.SameSort q.body
  extras : p.extras.map Prod.fst = q.extras.map Prod.fst

theorem loadBody_congr (h : b.SameSort c) : loadBody kind data b = loadBody kind data c := by
  cases b with
  | page b =>
      cases c with
      | page c => rfl
      | task u => cases congrArg List.length h
  | task t =>
      cases c with
      | page c => cases congrArg List.length h
      | task u => rfl

theorem loadExtras_congr (h : extras.map Prod.fst = extras'.map Prod.fst) :
    loadExtras kind data extras = loadExtras kind data extras' := by
  induction extras generalizing extras' with
  | nil =>
      rw [List.map_nil, eq_comm, List.map_eq_nil_iff] at h
      rw [h]
  | cons e extras ih =>
      obtain ⟨e', rest, rfl, hfield, hrest⟩ := List.map_eq_cons_iff.1 h.symm
      obtain ⟨f, v⟩ := e
      obtain ⟨f', v'⟩ := e'
      obtain rfl : f' = f := hfield
      rw [loadExtras, loadExtras, ih hrest.symm]

theorem loaded_congr (h : SameFields p q) (data : Members) : loaded data p = loaded data q := by
  unfold loaded
  rw [h.kind, loadBody_congr h.body, loadExtras_congr h.extras]

/-- What is loaded does not depend on what the fields hold. -/
theorem decoded_congr (h : SameFields p q) (blob : Bytes) : decoded blob p = decoded blob q := by
  unfold decoded
  simp only [h.kind, loaded_congr h]

/-! ## Defaults -/

/-- The default of a body's fields. -/
def clearBody : Body → Body
  | .page _ => .page {}
  | .task _ => .task {}

/-- The payload with every field at its default; a field without one is as in a new item. -/
def cleared (p : Payload) : Payload where
  kind := p.kind
  body := clearBody p.body
  extras := p.extras.map fun e => (e.1, e.1.default?.getD e.1.fresh)

/-- What a field of a payload holds for a value of a record: that value, or for a deferral the day that
its text stands for. -/
def HeldFor (name : Text) (stored held : Json) : Prop :=
  held = stored ∨ name = "deferred_until" ∧ ∃ t day, stored = .str t ∧ Date.ofText t = .ok day
    ∧ held = dateJson (some day)

/-- A field that was loaded from a record, and its default: it has the default if the record lacks it, and
otherwise what the record has, unless that is a field of the header. -/
structure LoadedFrom (data : Members) (field default : Text × Json) : Prop where
  name : field.1 = default.1
  missing : present? field.1 data = none → field.2 = default.2
  present : ∀ v, present? field.1 data = some v → Header.isField field.1 = false →
    HeldFor field.1 v field.2

theorem loadedFrom_text {name t : Text} (h : loadText kind name data = .ok t) :
    LoadedFrom data (name, .str t) (name, .str []) := by
  unfold loadText at h
  refine ⟨rfl, fun hnone => ?_, fun v hv _ => .inl ?_⟩
  · rw [hnone] at h
    cases h
    rfl
  · cases v <;> rw [hv] at h <;> cases h
    rfl

theorem loadedFrom_status {s : Status} (h : loadStatus data = .ok s) :
    LoadedFrom data ("status", .str s.label) ("status", .str Status.toDo.label) := by
  unfold loadStatus at h
  refine ⟨rfl, fun hnone => ?_, fun v hv _ => .inl ?_⟩
  · rw [hnone] at h
    cases h
    rfl
  · cases v with
    | str t =>
        rw [hv] at h
        cases hs : Status.ofLabel? t with
        | none => simp [hs] at h
        | some s' =>
            obtain rfl : s' = s := by simpa [hs] using h
            rw [Status.label_of_ofLabel? hs]
    | _ => rw [hv] at h; cases h

theorem loadedFrom_deferral {day : Option Date} (h : loadDeferral data = .ok day) :
    LoadedFrom data ("deferred_until", dateJson day) ("deferred_until", dateJson none) := by
  unfold loadDeferral at h
  refine ⟨rfl, fun hnone => ?_, fun v hv _ => .inr ⟨rfl, ?_⟩⟩
  · rw [hnone] at h
    cases h
    rfl
  · cases v with
    | str t =>
        rw [hv] at h
        cases hd : Date.ofText t with
        | error e => simp [hd] at h
        | ok d =>
            obtain rfl : some d = day := by simpa [hd] using h
            exact ⟨t, d, rfl, hd, rfl⟩
    | _ => rw [hv] at h; cases h

/-- A further field is loaded only if it has a default. -/
theorem loadedFrom_extra {f : ExtraField} {v : Json} (h : loadExtra kind data f = .ok v) :
    LoadedFrom data (f.name, v) (f.name, f.default?.getD f.fresh) := by
  unfold loadExtra at h
  cases hdefault : f.default? with
  | none =>
      rw [hdefault] at h
      cases h
  | some default =>
      rw [hdefault] at h
      refine ⟨rfl, fun hnone => ?_, fun w hw _ => .inl ?_⟩
      · rw [hnone] at h
        exact (Except.ok.inj h).symm
      · rw [hw] at h
        dsimp only at h
        split at h <;> cases h <;> rfl

/-- A body that is loaded has the fields of the old one. -/
theorem loadedFrom_body (h : loadBody kind data b = .ok c) :
    c.SameSort b ∧ List.Forall₂ (LoadedFrom data) (bodyFields c) (bodyFields (clearBody b)) := by
  cases b with
  | page old =>
      obtain ⟨name, body, hname, hbody, rfl⟩ := loadBody_page_iff.1 h
      exact ⟨rfl, .cons (loadedFrom_text hname) (.cons (loadedFrom_text hbody) .nil)⟩
  | task old =>
      obtain ⟨name, body, context, status, day, hname, hbody, hcontext, hstatus, hday, rfl⟩ :=
        loadBody_task_iff.1 h
      exact ⟨rfl, .cons (loadedFrom_text hname) (.cons (loadedFrom_text hbody)
        (.cons (loadedFrom_text hcontext) (.cons (loadedFrom_status hstatus)
          (.cons (loadedFrom_deferral hday) .nil))))⟩

/-- Further fields that are loaded are the old ones. -/
theorem loadedFrom_extras (h : loadExtras kind data extras = .ok extras') :
    extras'.map Prod.fst = extras.map Prod.fst ∧ List.Forall₂ (LoadedFrom data) (extraFields extras')
      (extraFields (extras.map fun e => (e.1, e.1.default?.getD e.1.fresh))) := by
  induction extras generalizing extras' with
  | nil =>
      cases h
      exact ⟨rfl, .nil⟩
  | cons e extras ih =>
      obtain ⟨f, old⟩ := e
      obtain ⟨v, hv, h⟩ := Except.bind_eq_ok_iff.1 h
      obtain ⟨rest, hrest, h⟩ := Except.bind_eq_ok_iff.1 h
      cases h
      obtain ⟨hfields, hloaded⟩ := ih hrest
      exact ⟨congrArg (f :: ·) hfields, .cons (loadedFrom_extra hv) hloaded⟩

/-- What is loaded has the fields of the old payload, as the record has them. -/
theorem loaded_eq_ok (h : loaded data p = .ok q) :
    SameFields q p ∧ List.Forall₂ (LoadedFrom data) q.fields p.cleared.fields := by
  obtain ⟨body, hbody, h⟩ := Except.bind_eq_ok_iff.1 h
  obtain ⟨extras, hextras, h⟩ := Except.bind_eq_ok_iff.1 h
  cases h
  obtain ⟨hsort, hbodyFields⟩ := loadedFrom_body hbody
  obtain ⟨hfields, hextraFields⟩ := loadedFrom_extras hextras
  exact ⟨⟨rfl, hsort, hfields⟩, List.rel_append hbodyFields hextraFields⟩

/-- The payload's part of a record has all fields of the record that are not of the header. -/
theorem present?_payloadPart (name : Text) (ms : Members) : present? name (Record.payloadPart ms)
    = if Header.isField name then none else present? name ms := by
  unfold present?
  rw [Record.get?_payloadPart]
  by_cases hkey : Header.isField name = true
  · simp only [if_pos hkey]
  · simp only [if_neg hkey]

theorem LoadedFrom.of_payloadPart {field default : Text × Json}
    (h : LoadedFrom (Record.payloadPart ms) field default) : LoadedFrom ms field default where
  name := h.name
  missing hnone := h.missing (by rw [present?_payloadPart, hnone, ite_self])
  present v hv hfield := h.present v (by rw [present?_payloadPart, hfield]; exact hv) hfield

/-- What is loaded from a stored record has the fields of the old payload. -/
theorem decoded_eq_ok {blob : Bytes} (h : decoded blob p = .ok q) : ∃ ms, Record.decode blob = .ok ms
    ∧ SameFields q p ∧ List.Forall₂ (LoadedFrom ms) q.fields p.cleared.fields := by
  obtain ⟨ms, hms, h⟩ := Except.bind_eq_ok_iff.1 h
  obtain ⟨⟨header, data⟩, hsplit, h⟩ := Except.bind_eq_ok_iff.1 h
  dsimp only at h
  split at h
  · obtain ⟨-, rfl⟩ := header_of_split hsplit
    obtain ⟨hfields, hloaded⟩ := loaded_eq_ok h
    exact ⟨ms, hms, hfields, hloaded.imp fun _ _ => LoadedFrom.of_payloadPart⟩
  · cases h

/-- **Loading.** A record that cannot be loaded changes nothing.  What is loaded of one that can is what
is loaded of it into a new payload of the kind: every field that the record lacks, or has as null, is
at its default, and every other one is as in the record, so no old value is left. -/
theorem decode_forgets (policy : KindPolicy) (hp : SameFields p policy.fresh) (blob : Bytes) :
    (∃ e, (decode blob).Yields p (.error e) p
        ∧ (decode blob).Yields policy.fresh (.error e) policy.fresh)
      ∨ ∃ ms q, Record.decode blob = .ok ms ∧ (decode blob).Yields p (.ok ()) q
        ∧ (decode blob).Yields policy.fresh (.ok ()) q ∧ SameFields q policy.fresh
        ∧ List.Forall₂ (LoadedFrom ms) q.fields policy.fresh.cleared.fields := by
  have hsame := decoded_congr hp blob
  cases hd : decoded blob policy.fresh with
  | error e => exact .inl ⟨e, decode_yields_error (hsame.trans hd), decode_yields_error hd⟩
  | ok q =>
      obtain ⟨ms, hms, hfields, hloaded⟩ := decoded_eq_ok hd
      exact .inr ⟨ms, q, hms, decode_yields_ok (hsame.trans hd), decode_yields_ok hd, hfields, hloaded⟩

/-! ## A kind with a further field -/

/-- A kind of pages with tags, of which a new page has none. -/
def tagged : KindPolicy := .extension "tagged" [⟨"tags", .arr [], some (.arr [])⟩] none

/-- A page that has a tag. -/
def taggedPage : Payload where
  kind := .word "tagged"
  body := .page { name := "m", text := "t" }
  extras := [(⟨"tags", .arr [], some (.arr [])⟩, .arr [.str "x"])]

/-- The members of the record of a page without a text, whose tags are null. -/
def untaggedMembers : Members :=
  [("ident", .str "a"), ("kind", .str "tagged"), ("name", .str "n"), ("tags", .null)]

theorem exists_untaggedRecord : ∃ blob, Record.encode (.obj untaggedMembers) = .ok blob
    ∧ Record.decode blob = .ok untaggedMembers := by
  have hflat : Record.Flat untaggedMembers := by
    refine ⟨by decide, ?_, ?_⟩ <;>
      simp [untaggedMembers, Record.Scalar, Text.plain_ofString]
  have hstorable : ∀ m ∈ untaggedMembers, Record.Storable m.2 := by
    simp [untaggedMembers, Record.Storable, Text.plain_ofString]
  have hsorted : Json.sortByKey untaggedMembers = untaggedMembers :=
    List.mergeSort_of_pairwise (by decide)
  obtain ⟨blob, hblob⟩ := hflat.encode_ok_iff.2 hstorable
  refine ⟨blob, hblob, ?_⟩
  rw [hflat.decode_encode hblob, hsorted]

theorem decoded_untaggedRecord {blob : Bytes} (hd : Record.decode blob = .ok untaggedMembers) :
    ∃ q, decoded blob taggedPage = .ok q := by
  obtain ⟨h, hsplit, hkind⟩ : ∃ h, Record.split untaggedMembers
      = .ok (h, [("name", .str "n"), ("tags", .null)]) ∧ h.kind.same taggedPage.kind = true :=
    ⟨_, rfl, rfl⟩
  exact ⟨_, decoded_of_split hd hsplit hkind⟩

/-- A page has the name of such a record when that is loaded into it, and its text and its tag are gone. -/
theorem decode_forgets_tags : ∃ blob q, Record.encode (.obj untaggedMembers) = .ok blob
    ∧ (decode blob).Yields taggedPage (.ok ()) q ∧ (decode blob).Yields tagged.fresh (.ok ()) q
    ∧ q.fields = ([("name", .str "n"), ("text", .str []), ("tags", .arr [])] : Members) := by
  have hsame : SameFields taggedPage tagged.fresh := ⟨rfl, rfl, rfl⟩
  obtain ⟨blob, hblob, hd⟩ := exists_untaggedRecord
  obtain ⟨e, hfailed, -⟩ | ⟨ms, q, hms, hold, hfresh, -, hloaded⟩ := decode_forgets tagged hsame blob
  · obtain ⟨q, hq⟩ := decoded_untaggedRecord hd
    cases ((decode_yields_ok hq).unique hfailed).1
  · obtain rfl := Except.ok.inj (hd.symm.trans hms)
    have hdefaults : tagged.fresh.cleared.fields
        = ([("name", .str []), ("text", .str []), ("tags", .arr [])] : Members) := rfl
    rw [hdefaults] at hloaded
    obtain ⟨⟨_, name⟩, _, ⟨rfl, -, hname⟩, hthere, hq⟩ := List.forall₂_cons_right_iff.1 hloaded
    obtain ⟨⟨_, text⟩, _, ⟨rfl, htext, -⟩, hlast, rfl⟩ := List.forall₂_cons_right_iff.1 hthere
    obtain ⟨⟨_, tags⟩, _, ⟨rfl, htags, -⟩, hnil, rfl⟩ := List.forall₂_cons_right_iff.1 hlast
    obtain rfl := List.forall₂_nil_right_iff.1 hnil
    have hother : ("name" : Text) ≠ "deferred_until" := by decide
    obtain rfl : name = .str "n" := (hname (.str "n") rfl rfl).resolve_right fun h => hother h.1
    obtain rfl : text = .str [] := htext rfl
    obtain rfl : tags = .arr [] := htags rfl
    exact ⟨blob, q, hblob, hold, hfresh, hq⟩

end Payload

end RecordStore
