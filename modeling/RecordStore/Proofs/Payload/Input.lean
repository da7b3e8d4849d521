import RecordStore.Payload.Input
import RecordStore.Proofs.Procedure

/-!
# RecordStore.Proofs.Payload.Input

A form is checked in one place and taken over in another.  What a payload asks of a form is said here
apart from both (`Payload.Refuses`): a name must be there, and the deferral of a task must be left out,
blank or a day.

* `applyForm_yields_entered`: a form that is not refused is taken over (`Payload.entered`).
* `applyForm_yields_refused`: a form that is refused changes nothing.
* `check_errors`: the report lists the failed ones of all checks.
* `applyForm_outcome`: what the two say of one form.
-/

namespace RecordStore

open Procedure

namespace Payload

variable {p p' : Payload} {form : Form} {b : Body} {raw : Text} {day : Option Date}

/-! ## Deferrals -/

/-- A deferral as a form tells it: a blank text, or a day with blanks around it. -/
inductive Defers (raw : Text) : Option Date → Prop where
  | never (blank : raw.strip = []) : Defers raw none
  | till (day : Date) (told : Date.ofText raw.strip = .ok day) : Defers raw (some day)

/-- A text that is neither blank nor a day. -/
def Undated (raw : Text) : Prop := raw.strip ≠ [] ∧ ∀ day, Date.ofText raw.strip ≠ .ok day

theorem ofText_nil : Date.ofText [] = .error .form := rfl

theorem Defers.read (h : Defers raw day) : Form.readDeferral raw = .ok day := by
  cases h with
  | never hblank => simp [Form.readDeferral, hblank]
  | till d htold =>
      have hne : raw.strip ≠ [] := by
        intro hblank
        rw [hblank, ofText_nil] at htold
        cases htold
      simp [Form.readDeferral, hne, htold]

/-- What is read as a deferral is one. -/
theorem defers_of_read (h : Form.readDeferral raw = .ok day) : Defers raw day := by
  simp only [Form.readDeferral, List.isEmpty_iff] at h
  split at h
  · next hblank =>
    cases h
    exact .never hblank
  · split at h
    · next d htold =>
      cases h
      exact .till d htold
    · cases h

/-- Only what is neither blank nor a day is not read as a deferral. -/
theorem undated_iff : Undated raw ↔ ∃ e, Form.readDeferral raw = .error e := by
  constructor
  · rintro ⟨hne, hnone⟩
    cases hread : Form.readDeferral raw with
    | error e => exact ⟨e, rfl⟩
    | ok day =>
        cases defers_of_read hread with
        | never hblank => exact absurd hblank hne
        | till d htold => exact absurd htold (hnone d)
  · rintro ⟨e, he⟩
    refine ⟨fun hblank => ?_, fun d htold => ?_⟩
    · cases (Defers.never hblank).read.symm.trans he
    · cases (Defers.till d htold).read.symm.trans he

/-- The day that a form defers to; none when the field is blank. -/
def enteredDeferral (form : Form) : Option Date :=
  (Form.readDeferral (form.optional "deferred_until")).toOption.join

/-- The deferral of a form passes its check unless it is neither blank nor a day. -/
theorem hasDeferral_iff : hasDeferral form = true ↔ ¬ Undated (form.optional "deferred_until") := by
  rw [undated_iff]
  unfold hasDeferral
  cases Form.readDeferral (form.optional "deferred_until") <;> simp

/-- A deferral that passes its check is the one that is taken over. -/
theorem defers_entered (h : hasDeferral form = true) :
    Defers (form.optional "deferred_until") (enteredDeferral form) := by
  rw [hasDeferral_iff, undated_iff] at h
  cases hr : Form.readDeferral (form.optional "deferred_until") with
  | error e => exact absurd ⟨e, hr⟩ h
  | ok day =>
      have hday : enteredDeferral form = day := by simp [enteredDeferral, hr, Except.toOption]
      rw [hday]
      exact defers_of_read hr

theorem Defers.input (h : Defers raw day) : inputDeferral raw = .ok day := by
  rw [inputDeferral, h.read]
  rfl

/-! ## Refused forms -/

/-- A form that a body does not take over: it has no name or, for a task, a deferral that is neither
blank nor a day. -/
def Refuses (form : Form) (b : Body) : Prop :=
  List.lookup ("name" : Text) form = none
    ∨ (∃ t, b = .task t) ∧ ∃ raw, List.lookup ("deferred_until" : Text) form = some raw ∧ Undated raw

/-- What is said of a form that is refused. -/
def refusal (form : Form) : ValidationFault :=
  if (List.lookup ("name" : Text) form).isNone then .missing "name" else .badDeferral

/-- A deferral that is left out is blank, and so not one that is refused. -/
theorem exists_undated_iff :
    (∃ raw, List.lookup ("deferred_until" : Text) form = some raw ∧ Undated raw)
      ↔ Undated (form.optional "deferred_until") := by
  unfold Form.optional
  cases List.lookup ("deferred_until" : Text) form with
  | some raw => simp
  | none => simp [Undated, show Text.strip [] = [] from rfl]

theorem not_refuses_iff : ¬ Refuses form b ↔ (∃ name, List.lookup ("name" : Text) form = some name)
    ∧ ∀ t, b = .task t → hasDeferral form = true := by
  rw [Refuses, exists_undated_iff, hasDeferral_iff, not_or, not_and, forall_exists_index,
    ← Option.isNone_iff_eq_none, Bool.not_eq_true, Option.isNone_eq_false_iff,
    Option.isSome_iff_exists]

/-! ## Taking a form over -/

/-- The payload with the input of a form.  The status of a task stays as it is. -/
def entered (form : Form) (p : Payload) : Payload :=
  match p.body with
  | .page _ => { p with body := .page { name := form.optional "name", text := form.optional "text" } }
  | .task t => { p with body := .task { t with
      name := form.optional "name", text := form.optional "text", context := form.optional "context",
      deferredUntil := enteredDeferral form } }

/-- A body and what becomes of it when it takes a form over: every field is the one of the form, empty
where the form leaves it out, and only the status of a task stays. -/
inductive Takes (form : Form) : Body → Body → Prop where
  | page (b : Page) : Takes form (.page b)
      (.page { name := form.optional "name", text := form.optional "text" })
  | task (t : Task) (day : Option Date) (told : Defers (form.optional "deferred_until") day) :
      Takes form (.task t) (.task {
        name := form.optional "name", text := form.optional "text",
        context := form.optional "context", status := t.status, deferredUntil := day })

/-- Two bodies of one sort, which have the same status if they are tasks. -/
inductive SameStatus : Body → Body → Prop where
  | page (b c : Page) : SameStatus (.page b) (.page c)
  | task (t u : Task) (same : t.status = u.status) : SameStatus (.task t) (.task u)

theorem entered_kind (form : Form) (p : Payload) : (p.entered form).kind = p.kind := by
  unfold entered
  split <;> rfl

theorem entered_extras (form : Form) (p : Payload) : (p.entered form).extras = p.extras := by
  unfold entered
  split <;> rfl

/-- What becomes of a body does not depend on its old values, but for a status. -/
theorem entered_body_congr {q : Payload} (h : SameStatus p.body q.body) :
    (q.entered form).body = (p.entered form).body := by
  obtain ⟨kind, body, extras⟩ := p
  obtain ⟨kind', body', extras'⟩ := q
  cases h with
  | page b c => rfl
  | task t u hstatus =>
      simp only [entered, hstatus]

theorem takes_entered (h : ¬ Refuses form p.body) : Takes form p.body (p.entered form).body := by
  obtain ⟨-, hdeferral⟩ := not_refuses_iff.1 h
  obtain ⟨kind, body, extras⟩ := p
  cases body with
  | page b => exact .page b
  | task t => exact .task t _ (defers_entered (hdeferral t rfl))

/-- A form that is not refused is taken over. -/
theorem applyForm_yields_entered (h : ¬ Refuses form p.body) :
    (applyForm form).Yields p (.ok ()) (p.entered form) := by
  obtain ⟨⟨name, hname⟩, hdeferral⟩ := not_refuses_iff.1 h
  have hrequire : form.require "name" = .ok (form.optional "name") := by
    simp [Form.require, Form.optional, hname]
  obtain ⟨kind, body, extras⟩ := p
  refine yields_state_bind_iff.2 ?_
  rw [hrequire]
  refine yields_ofExcept_ok_bind_iff.2 ?_
  cases body with
  | page b => exact yields_put _ _
  | task t =>
      dsimp only
      rw [(defers_entered (hdeferral t rfl)).input]
      exact yields_put _ _

/-- A form that is refused changes nothing. -/
theorem applyForm_yields_refused (h : Refuses form p.body) :
    (applyForm form).Yields p (.error (.validation (refusal form))) p := by
  refine yields_state_bind_iff.2 ?_
  unfold refusal
  cases hname : List.lookup ("name" : Text) form with
  | none =>
      have hrequire : form.require "name" = .error (.validation (.missing "name")) := by
        simp [Form.require, hname]
      rw [hrequire]
      exact (yields_ofExcept _ p).bind_error
  | some name =>
      have hrequire : form.require "name" = .ok name := by simp [Form.require, hname]
      rw [hrequire]
      refine yields_ofExcept_ok_bind_iff.2 ?_
      obtain hnone | ⟨⟨t, ht⟩, hundated⟩ := h
      · cases hname.symm.trans hnone
      · obtain ⟨e, he⟩ := undated_iff.1 (exists_undated_iff.1 hundated)
        rw [ht, inputDeferral, he]
        exact (yields_ofExcept _ p).bind_error

/-! ## Checking a form -/

/-- The checks of a form, in order, with what is told of one that fails. -/
def checks (form : Form) : Body → List (Bool × FieldError)
  | .page _ => [(hasName form, ⟨"name-error", "Name must be non-blank."⟩)]
  | .task _ => [(hasName form, ⟨"name-error", "Name must be non-blank."⟩),
      (hasDeferral form, ⟨"deferred-error", deferralMessage⟩)]

/-- The report lists the failed checks. -/
theorem check_errors (form : Form) (p : Payload) : (p.check form).errors
    = ((checks form p.body).filter fun c => !c.1).map Prod.snd := by
  unfold check checks CheckReport.require
  cases p.body <;> cases hasName form <;> cases hasDeferral form <;> rfl

theorem hasName_iff : hasName form = true
    ↔ ∃ name, List.lookup ("name" : Text) form = some name ∧ name.strip ≠ [] := by
  unfold hasName Form.optional
  cases List.lookup ("name" : Text) form with
  | some name => simp
  | none => simp [show Text.strip [] = [] from rfl]

theorem success_iff : (p.check form).success = true ↔ ∀ c ∈ checks form p.body, c.1 = true := by
  simp [CheckReport.success, check_errors]

/-- A form that passes its check is not refused. -/
theorem not_refuses_of_success (h : (p.check form).success = true) : ¬ Refuses form p.body := by
  rw [success_iff] at h
  have hnamed : hasName form = true → ∃ name, List.lookup ("name" : Text) form = some name := by
    intro hname
    obtain ⟨name, hlookup, -⟩ := hasName_iff.1 hname
    exact ⟨name, hlookup⟩
  rw [not_refuses_iff]
  cases hbody : p.body with
  | page b =>
      rw [hbody] at h
      exact ⟨hnamed (h _ List.mem_cons_self), nofun⟩
  | task t =>
      rw [hbody] at h
      exact ⟨hnamed (h _ List.mem_cons_self),
        fun _ _ => h _ (List.mem_cons_of_mem _ List.mem_cons_self)⟩

/-- **Input.** A form is taken over exactly when it is not refused.  Then the new fields are those of the
form, whatever was there, and only the status of a task stays; a refused form is bad input, and changes
nothing.  The check reports every failed one of its tests, in order: that the name is not blank, and
that the deferral of a task could be taken over.  A form that passes them is taken over. -/
theorem applyForm_outcome (form : Form) (p : Payload) :
    ((p.check form).success = true → ∃ p', (applyForm form).Yields p (.ok ()) p')
      ∧ (∀ out p', (applyForm form).Yields p out p' → match out with
        | .ok () => ¬ Refuses form p.body ∧ Takes form p.body p'.body
          ∧ p'.kind = p.kind ∧ p'.extras = p.extras
          ∧ ∀ q q', SameStatus p.body q.body → (applyForm form).Yields q (.ok ()) q' → q'.body = p'.body
        | .error e => Refuses form p.body ∧ e = .validation (refusal form) ∧ p' = p)
      ∧ (p.check form).errors = ((checks form p.body).filter fun c => !c.1).map Prod.snd
      ∧ (hasName form = true
        ↔ ∃ name, List.lookup ("name" : Text) form = some name ∧ name.strip ≠ [])
      ∧ (hasDeferral form = true ↔ ¬ Undated (form.optional "deferred_until")) := by
  -- Either way, the run is the only one.
  have hok : ∀ {q q' : Payload}, (applyForm form).Yields q (.ok ()) q' →
      ¬ Refuses form q.body ∧ q' = q.entered form := by
    intro q q' h
    by_cases hr : Refuses form q.body
    · cases (h.unique (applyForm_yields_refused hr)).1
    · exact ⟨hr, (h.unique (applyForm_yields_entered hr)).2⟩
  refine ⟨fun hs => ⟨_, applyForm_yields_entered (not_refuses_of_success hs)⟩, ?_,
    check_errors form p, hasName_iff, hasDeferral_iff⟩
  intro out p' h
  cases out with
  | ok u =>
      obtain ⟨hr, rfl⟩ := hok h
      refine ⟨hr, takes_entered hr, ?_, ?_, ?_⟩
      · exact entered_kind form p
      · exact entered_extras form p
      · intro q q' hsame hq
        rw [(hok hq).2]
        exact entered_body_congr hsame
  | error e =>
      by_cases hr : Refuses form p.body
      · obtain ⟨he, rfl⟩ := h.unique (applyForm_yields_refused hr)
        exact ⟨hr, Except.error.inj he, rfl⟩
      · cases (h.unique (applyForm_yields_entered hr)).1

/-- A form that names a task and defers it is taken over; the context that it leaves out is empty then, and
the task is still in progress. -/
theorem applyForm_outcome_deferred :
    let form : Form := [("name", "n"), ("deferred_until", " 2026-05-01 ")]
    let p : Payload := { kind := .task, body := .task { context := "c", status := .inProgress } }
    ∃ p' t, (applyForm form).Yields p (.ok ()) p' ∧ p'.body = .task t ∧ t.name = "n" ∧ t.context = []
      ∧ t.status = .inProgress ∧ t.deferredUntil = (Date.ofText "2026-05-01").toOption := by
  intro form p
  obtain ⟨hchecked, houtcome, -⟩ := applyForm_outcome form p
  obtain ⟨p', hyields⟩ := hchecked (by decide)
  obtain ⟨-, htakes, -⟩ := houtcome _ _ hyields
  have hbody : p.body = .task { context := "c", status := .inProgress } := rfl
  rw [hbody] at htakes
  cases hp' : p'.body with
  | page b => rw [hp'] at htakes; cases htakes
  | task t =>
      rw [hp'] at htakes
      cases htakes with
      | task _ day htold =>
          refine ⟨p', _, hyields, hp', rfl, rfl, rfl, ?_⟩
          cases htold with
          | never hblank => exact absurd hblank (by decide)
          | till d hd =>
              have hstrip : (form.optional "deferred_until").strip = "2026-05-01" := by decide
              rw [hstrip] at hd
              simp [hd, Except.toOption]

end Payload

end RecordStore
