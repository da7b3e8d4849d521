import RecordStore.Proofs.Item
import RecordStore.Proofs.Payload.Input

/-!
# RecordStore.Proofs.Payload

What input and actions make of a payload of a bundled kind, and of an item with one.

* `Item.applyForm_yields`: input that passes its check is taken over (`Payload.entered`).
* `act_yields_task`, `act_yields_page`: an action changes a task, or it is refused and the payload
  stays as it is.
-/

namespace RecordStore

open Procedure

namespace Payload

variable {p : Payload} {form : Form}

/-! ## Input -/

theorem Bundled.entered (hp : p.Bundled) (form : Form) :
    (p.entered form).Bundled ∧ (p.entered form).kind = p.kind := by
  cases hp with
  | page b => exact ⟨.page _, rfl⟩
  | task t => exact ⟨.task _, rfl⟩

/-! ## Actions -/

/-- A page has no actions. -/
theorem act_yields_page (h : Header) (name : Text) (s : Surroundings) (b : Page) :
    (act h name s).Yields { kind := .page, body := .page b }
    (.error (.programming (.noActions Kind.page.name h.ident name))) { kind := .page, body := .page b } :=
  yields_state_bind_iff.2 (yields_fail _ _)

/-- An action of tasks is done, and answered with the page that shows the task. -/
theorem act_yields_task (h : Header) (s : Surroundings) (action : TaskAction) (t : Task) :
    match actOn action s.input t with
    | .ok t' => (act h action.name s).Yields { kind := .task, body := .task t }
        (run (showPage h s { kind := .task, body := .task t' }) ()).result
        { kind := .task, body := .task t' }
    | .error e => (act h action.name s).Yields { kind := .task, body := .task t } (.error e)
        { kind := .task, body := .task t } := by
  unfold act
  simp only [TaskAction.ofName?_name]
  cases hact : actOn action s.input t with
  | error e =>
      refine yields_state_bind_iff.2 ?_
      dsimp only
      rw [hact]
      exact (yields_fail e _).bind_error
  | ok t' =>
      refine yields_state_bind_iff.2 ?_
      dsimp only
      rw [hact]
      refine yields_ofExcept_ok_bind_iff.2 ((yields_put _ _).bind ?_)
      refine yields_report_bind_iff.2 (yields_state_bind_iff.2 ?_)
      have hshow := yields_run (showPage h s { kind := .task, body := .task t' }) ()
      exact hshow.lift

/-- An action changes the status or the deferral of a task. -/
theorem actOn_eq {action : TaskAction} {input : Form} {t t' : Task} (h : actOn action input t = .ok t') :
    t' = { t with status := t'.status, deferredUntil := t'.deferredUntil } := by
  cases action with
  | done | reopen | start => cases h; rfl
  | defer =>
      obtain ⟨raw, -, h⟩ := Except.bind_eq_ok_iff.1 h
      obtain ⟨day, -, h⟩ := Except.bind_eq_ok_iff.1 h
      cases h
      rfl

end Payload

namespace Item

variable {i : Item} {form : Form}

/-- A regular item with the input of a form is regular. -/
theorem Regular.entered (r : i.Regular) (form : Form) :
    Item.Regular { i with payload := i.payload.entered form } := by
  obtain ⟨hbundled, hkind⟩ := r.payload.entered form
  exact ⟨r.header, hbundled, r.kind.trans (congrArg Kind.name hkind.symm)⟩

/-- An item after an action: a task is changed by it, and a page has no actions. -/
def acted (action : TaskAction) (input : Form) (i : Item) : Except Failure Item :=
  match i.payload.body with
  | .page _ => .error (.programming (.noActions i.payload.kind.name i.ident action.name))
  | .task t => (Payload.actOn action input t).map fun t =>
      { i with payload := { i.payload with body := .task t } }

/-- An action changes an item in the status or the deferral of its task. -/
theorem acted_eq {action : TaskAction} {input : Form} {i' : Item} (h : i.acted action input = .ok i') :
    ∃ t status deferredUntil, i.payload.body = .task t ∧ i' = { i with payload := { i.payload with
      body := .task { t with status, deferredUntil } } } := by
  unfold acted at h
  split at h
  · cases h
  · next t ht =>
    cases hact : Payload.actOn action input t with
    | error e => simp [hact, Except.map] at h
    | ok t' =>
        simp only [hact, Except.map, Except.ok.injEq] at h
        refine ⟨t, t'.status, t'.deferredUntil, ht, ?_⟩
        rw [← Payload.actOn_eq hact, h]

/-- A regular item that is acted on is regular. -/
theorem Regular.acted (r : i.Regular) {action : TaskAction} {input : Form} {i' : Item}
    (h : i.acted action input = .ok i') : i'.Regular := by
  obtain ⟨t, status, deferredUntil, hbody, rfl⟩ := acted_eq h
  obtain ⟨header, payload⟩ := i
  cases r.payload with
  | page b => cases hbody
  | task t => exact ⟨r.header, .task _, r.kind⟩

/-- An action changes an item and answers with the page that shows it, or it is refused. -/
theorem Regular.act_yields (r : i.Regular) (action : TaskAction) (s : Surroundings) :
    match i.acted action s.input with
    | .ok i' => (act action.name s).Yields i (run (i'.showPage s) ()).result i'
    | .error e => (act action.name s).Yields i (.error e) i := by
  obtain ⟨header, payload⟩ := i
  have hact : ∀ {out p}, (Payload.act header action.name s).Yields payload out p →
      (act action.name s).Yields ⟨header, payload⟩ out ⟨header, p⟩ :=
    fun hy => yields_state_bind_iff.2 (Yields.onPart (s := Item.mk header payload) hy)
  cases r.payload with
  | page b => exact hact (Payload.act_yields_page header action.name s b)
  | task t =>
      have htask := Payload.act_yields_task header s action t
      simp only [Item.acted]
      cases hout : Payload.actOn action s.input t with
      | error e =>
          rw [hout] at htask
          exact hact htask
      | ok t' =>
          rw [hout] at htask
          exact hact htask

/-- Input that passes its check is taken over into an item. -/
theorem applyForm_yields (h : (i.payload.check form).success = true) :
    (onPayload (Payload.applyForm form)).Yields i (.ok ())
      { i with payload := i.payload.entered form } :=
  (Payload.applyForm_yields_entered (Payload.not_refuses_of_success h)).onPart

end Item

end RecordStore
