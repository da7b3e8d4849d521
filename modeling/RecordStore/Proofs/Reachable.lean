import Mathlib.Logic.Relation
import RecordStore.Proofs.Commands
import RecordStore.Proofs.Merge.AllOrNothing

/-!
# RecordStore.Proofs.Reachable

The repository in every state that a session can reach.  Every record is in order (`Filed`): it is
read as an item of its kind and its identifier, which is written as the same bytes, and whose revision
is in order.  That holds of the records that operations write, and of those that merges write whatever
their sides were, so that it holds in every session that is `InOrder` and after every step of one
(`InOrder.step`).  It takes names that files can have: operations write no others, but a merge may try.
-/

namespace RecordStore

open Procedure
open Repository (Contents Settled Tidy appliedAll)

/-! ## Items that can be stored -/

/-- A regular item whose record has a name that a file can have. -/
structure Item.Storable (i : Item) : Prop extends i.Regular where
  named : i.Named

namespace Item.Storable

variable {i i' : Item}

theorem stamped (r : i.Storable) (user : Option Text) {now : Timestamp} (hnow : now.Recordable) :
    (i.stamped user now).Storable ∧ (i.stamped user now).header.Counted := by
  obtain ⟨hregular, hcounted⟩ := r.toRegular.stamped user hnow
  exact ⟨⟨hregular, r.named⟩, hcounted⟩

theorem entered (r : i.Storable) (form : Form) :
    Item.Storable { i with payload := i.payload.entered form } :=
  ⟨r.toRegular.entered form, r.named⟩

theorem acted (r : i.Storable) {a : TaskAction} {form : Form} (h : i.acted a form = .ok i') :
    i'.Storable := by
  refine ⟨r.toRegular.acted h, ?_⟩
  obtain ⟨_, _, _, -, rfl⟩ := Item.acted_eq h
  exact r.named

end Item.Storable

/-! ## Records -/

/-- A record in order, with the item that it is read as. -/
structure Filed (kind ident : Text) (blob : Bytes) (i : Item) : Prop where
  storable : i.Storable
  recorded : i = i.recorded
  kind : i.kind.name = kind
  ident : i.ident = ident
  bytes : i.bytes = .ok blob
  counted : i.header.Counted

/-- A map of records that are in order. -/
def AllFiled (m : Contents) : Prop := ∀ ident v, m ident = some v → ∃ i, Filed v.1 ident v.2 i

section Filed

variable {kind ident : Text} {blob : Bytes} {i : Item} {m : Contents}

/-- What is stored of an item is in order when its revision is. -/
theorem Item.Storable.filed (r : i.Storable) (hc : i.header.Counted) (hb : i.bytes = .ok blob) :
    Filed i.kind.name i.ident blob i.recorded :=
  ⟨⟨r.recorded, r.named⟩, (Item.recorded_recorded i).symm, rfl, rfl, r.bytes_recorded.trans hb, hc⟩

/-- What is stored of a merged item is in order. -/
theorem Merge.Merged.filed {c : Conflict} (hm : Merged c i) (hc : c.Storable) (hb : i.bytes = .ok blob) :
    Filed c.kind c.ident blob i := by
  obtain ⟨n, hn, hparent, hrev⟩ := hm.revision
  have hnamed : i.Named := by rwa [Item.Named, hm.kind, hm.ident]
  refine ⟨⟨hm.regular, hnamed⟩, hm.recorded, hm.kind, hm.ident, hb, n + 1, by omega, hrev, .inr ?_⟩
  rw [hparent, Int.add_sub_cancel]

theorem AllFiled.update (h : AllFiled m) {v? : Option (Text × Bytes)}
    (hv : ∀ v ∈ v?, ∃ i, Filed v.1 ident v.2 i) : AllFiled (Function.update m ident v?) := by
  intro ident' v hm
  by_cases heq : ident' = ident
  · subst heq
    rw [Function.update_self] at hm
    exact hv v hm
  · rw [Function.update_of_ne heq] at hm
    exact h ident' v hm

theorem AllFiled.appliedAll (h : AllFiled m) {cs : List Change}
    (hcs : ∀ c ∈ cs, ∀ v ∈ c.stored, ∃ i, Filed v.1 c.ident v.2 i) :
    AllFiled (appliedAll m cs) := by
  induction cs generalizing m with
  | nil => exact h
  | cons c cs ih =>
      have hc := hcs c List.mem_cons_self
      exact ih (h.update hc) fun c' hc' => hcs c' (List.mem_cons_of_mem c hc')

end Filed

/-! ## Sessions -/

/-- A session on a repository without any batch, whose records are in order. -/
structure InOrder (s : Session) : Prop where
  registry : s.registry = .bundled
  clock : s.clock.now.Recordable
  contents : ∃ m, Settled (fun _ _ => False) m s.disk ∧ AllFiled m

section InOrder

variable {s s' : Session} {i : Item} {op : Operation}

/-- Changes around the repository do no harm. -/
theorem InOrder.around (h : InOrder s) (hreg : s'.registry = s.registry) (hdisk : s'.disk = s.disk)
    (hclock : s'.clock.now.Recordable) : InOrder s' :=
  ⟨hreg.trans h.registry, hclock, hdisk ▸ h.contents⟩

/-- An item that is saved is stored in order, or it is not stored. -/
theorem ensures_save (hop : op ≠ .delete) : (Store.save op).Ensures
    (fun st => InOrder st.1 ∧ st.2.Storable) (fun _ st => InOrder st.1) (fun st => InOrder st.1) := by
  refine ensures_of_yields fun ⟨s, i⟩ ⟨h, r⟩ => ?_
  cases hclock : s.clock.advance with
  | error e => exact ⟨_, _, Store.save_yields_clock hclock, h⟩
  | ok clock =>
      have hnow := Clock.recordable_advance hclock h.clock
      obtain ⟨rs, hcounted⟩ := r.stamped s.user h.clock
      obtain ⟨m, w, hm⟩ := h.contents
      have hread : InOrder { s with clock } := h.around rfl rfl hnow
      rcases Store.handOver_settled (s := { s with clock }) w rs.toRegular rs.named hop with
        ⟨f, hf⟩ | ⟨f, hf⟩ | ⟨blob, d, n, hb, hf, w'⟩
      · exact ⟨_, _, Store.save_yields r.toRegular hclock hf, hread⟩
      · exact ⟨_, _, Store.save_yields r.toRegular hclock hf, hread.around rfl rfl hnow⟩
      · refine ⟨_, _, Store.save_yields r.toRegular hclock hf, h.registry, hnow, _, w', ?_⟩
        refine hm.update fun v hv => ?_
        cases hv
        exact ⟨_, rs.filed hcounted hb⟩

/-- Input that passes is input for a payload of a bundled kind. -/
theorem ensures_check (form : Form) : (Store.check i form).Ensures (fun s => InOrder s ∧ i.Storable)
    (fun _ s => InOrder s ∧ i.Storable ∧ (i.payload.check form).success = true) InOrder := by
  refine ensures_of_yields fun s ⟨h, r⟩ => ?_
  cases hclosed : s.closed with
  | true => exact ⟨_, _, Store.check_yields_closed hclosed form, h⟩
  | false =>
      have hcheck := Store.check_yields r.toRegular hclosed form
      have hinput : InOrder { s with input := form } := h.around rfl rfl h.clock
      cases hs : (i.payload.check form).success with
      | true =>
          rw [hs] at hcheck
          exact ⟨_, _, hcheck, hinput, r, rfl⟩
      | false =>
          rw [hs] at hcheck
          exact ⟨_, _, hcheck, hinput⟩

/-- Input that is taken over into an item is stored in order, or not stored. -/
theorem ensures_writeInput (form : Form) (hop : op ≠ .delete) : (Store.writeInput form op).Ensures
    (fun st => InOrder st.1 ∧ st.2.Storable) (fun _ st => InOrder st.1) (fun st => InOrder st.1) := by
  unfold Store.writeInput
  refine ensures_state_bind fun ⟨s, i⟩ ⟨h, r⟩ => ?_
  have hcheck : (onFirst (Store.check i form)).Ensures (fun st : Session × Item => st = (s, i))
      (fun _ st => InOrder st.1 ∧ st.2 = i ∧ (i.payload.check form).success = true)
      (fun st => InOrder st.1) := by
    refine ensures_onFirst fun t s₁ out s' heq hy => ?_
    cases heq
    have hpost := ensures_check (i := i) form s out s' ⟨h, r⟩ hy
    cases out with
    | ok a => exact ⟨hpost.1, rfl, hpost.2.2⟩
    | error e => exact hpost
  have happly : (onSecond (Item.onPayload (Payload.applyForm form))).Ensures
      (fun st : Session × Item => InOrder st.1 ∧ st.2 = i ∧ (i.payload.check form).success = true)
      (fun _ st => InOrder st.1 ∧ st.2.Storable) (fun st => InOrder st.1) := by
    refine ensures_onSecond fun s₁ => ensures_of_yields fun i' ⟨h₁, heq, hs⟩ => ?_
    subst heq
    exact ⟨_, _, Item.applyForm_yields hs, h₁, r.entered form⟩
  exact hcheck.bind fun _ => happly.bind fun _ => ensures_save hop

/-- What is written next to a session leaves it in order. -/
theorem ensures_withLocal_save {α β : Type} {p : Procedure (Session × Item) α} (f : α × Item → β)
    (hp : p.Ensures (fun st => InOrder st.1 ∧ st.2.Storable) (fun _ st => InOrder st.1)
      (fun st => InOrder st.1)) (i : Item) :
    (withLocal i p >>= fun out => pure (f out)).Ensures (fun s => InOrder s ∧ i.Storable)
      (fun _ => InOrder) InOrder := by
  have hlocal : (withLocal i p).Ensures (fun s => InOrder s ∧ i.Storable) (fun _ => InOrder) InOrder := by
    refine ensures_withLocal fun st out st' hst hy => hp st out st' ?_ hy
    exact ⟨hst.1.1, hst.2 ▸ hst.1.2⟩
  exact hlocal.bind fun _ => ensures_pure fun _ h => h

theorem ensures_ensureOpen : Session.ensureOpen.Ensures InOrder (fun _ => InOrder) InOrder :=
  ensures_of_looks fun s _ => ⟨_, ensureOpen_yields s⟩

/-- A record in order is read as its item. -/
theorem ensures_find (ident : Text) :
    (Store.find ident).Ensures InOrder (fun i s => InOrder s ∧ i.Storable) InOrder := by
  refine ensures_of_yields fun s h => ?_
  obtain ⟨m, w, hm⟩ := h.contents
  by_cases hready : s.Ready
  · have hfind := Store.find_yields w.represents hready ident
    cases hv : m ident with
    | none =>
        rw [hv] at hfind
        exact ⟨_, s, hfind, h⟩
    | some v =>
        obtain ⟨i, hi⟩ := hm ident v hv
        have hdecode := hi.storable.decodeItem_bytes hi.bytes
        rw [← hi.recorded, ← h.registry] at hdecode
        rw [hv] at hfind
        dsimp only at hfind
        rw [hdecode.1] at hfind
        exact ⟨_, s, hfind, h, hi.storable⟩
  · obtain ⟨e, hy⟩ := Session.requireRepository_of_not_ready hready
    exact ⟨_, s, hy.bind_error, h⟩

theorem ensures_newItem (kind : Text) :
    (Store.newItem kind).Ensures InOrder (fun i s => InOrder s ∧ i.Storable) InOrder := by
  refine ensures_of_yields fun s h => ?_
  have hnew := Store.newItem_yields h.registry kind
  cases he : Registry.bundled.get kind with
  | error f =>
      rw [he] at hnew
      exact ⟨_, s, hnew, h⟩
  | ok e =>
      rw [he] at hnew
      exact ⟨_, _, hnew, h.around rfl rfl h.clock, Item.regular_fresh he _ _, Item.named_fresh he _ _⟩

theorem ensures_create (kind : Text) (form : Form) :
    (Store.create kind form).Ensures InOrder (fun _ => InOrder) InOrder :=
  ensures_ensureOpen.bind fun _ => (ensures_newItem kind).bind fun i =>
    ensures_withLocal_save Prod.snd (ensures_writeInput form (by decide)) i

theorem ensures_update (ident : Text) (form : Form) :
    (Store.update ident form).Ensures InOrder (fun _ => InOrder) InOrder :=
  (ensures_ensureOpen.bind fun _ => ensures_find ident).bind fun i =>
    ensures_withLocal_save Prod.snd (ensures_writeInput form (by decide)) i

/-- A record that is deleted is gone, or it stays. -/
theorem ensures_delete (ident : Text) : (Store.delete ident).Ensures InOrder (fun _ => InOrder) InOrder := by
  refine ensures_of_yields fun s h => ?_
  obtain ⟨m, w, hm⟩ := h.contents
  by_cases hready : s.Ready
  · cases hv : m ident with
    | none => exact ⟨_, s, Store.delete_yields_none w.represents hready hv, h⟩
    | some v =>
        obtain ⟨i, hi⟩ := hm ident v hv
        have hproper := Store.proper_of_regular hi.storable.toRegular (c := .delete v.1 ident) hi.kind.symm
          hi.ident.symm
        rcases flush_settled w (l := Store.single _) rfl (Store.storable_of_delete hproper) with
          ⟨batch, d, n, hflush, w', -⟩ | ⟨f, hflush⟩
        · exact ⟨_, _, Store.delete_yields w.represents hready hv hflush, h.registry, h.clock, _, w',
            hm.update (by simp [Change.stored, Change.data?])⟩
        · exact ⟨_, _, Store.delete_yields w.represents hready hv hflush, h.around rfl rfl h.clock⟩
  · obtain ⟨e, hy⟩ := Session.requireRepository_of_not_ready hready
    exact ⟨_, s, hy.bind_error, h⟩

/-- An action leaves an item that can be stored. -/
theorem ensures_act (a : TaskAction) (around : Surroundings) :
    (Item.act a.name around).Ensures Item.Storable (fun _ => Item.Storable) (fun _ => True) := by
  refine ensures_of_yields fun i r => ?_
  have hact := r.toRegular.act_yields a around
  cases hout : i.acted a around.input with
  | error e =>
      rw [hout] at hact
      exact ⟨_, _, hact, trivial⟩
  | ok i' =>
      rw [hout] at hact
      refine ⟨_, _, hact, ?_⟩
      split
      · exact r.acted hout
      · trivial

theorem ensures_actOnItem (a : TaskAction) (ident : Text) :
    (Dispatch.actOnItem (.onTask a) ident).Ensures InOrder (fun _ => InOrder) InOrder := by
  refine (ensures_find ident).bind fun i => ensures_state_bind fun s ⟨h, r⟩ => ?_
  have hlocal : (onSecond (Item.act a.name s.surroundings) >>= fun response =>
      Store.save .update >>= fun _ => (pure response : Procedure (Session × Item) Response)).Ensures
      (fun st => InOrder st.1 ∧ st.2.Storable) (fun _ st => InOrder st.1) (fun st => InOrder st.1) := by
    have hact : (onSecond (Item.act a.name s.surroundings)).Ensures
        (fun st : Session × Item => InOrder st.1 ∧ st.2.Storable)
        (fun _ st => InOrder st.1 ∧ st.2.Storable) (fun st => InOrder st.1) := by
      refine ensures_onSecond fun s₁ i₁ out i' ⟨h₁, r₁⟩ hy => ?_
      have hpost := ensures_act a s.surroundings i₁ out i' r₁ hy
      cases out with
      | ok response => exact ⟨h₁, hpost⟩
      | error e => exact h₁
    exact hact.bind fun _ => (ensures_save (by decide)).bind fun _ => ensures_pure fun _ h => h
  intro s₁ out s' heq hy
  cases heq
  exact ensures_withLocal_save Prod.fst hlocal i s out s' ⟨h, r⟩ hy

theorem ensures_dispatch (name ident : Text) :
    (Dispatch.dispatch name ident).Ensures InOrder (fun _ => InOrder) InOrder := by
  refine (ensures_ofExcept (fun _ _ _ h => h) fun _ h => h).bind (Q := fun _ => InOrder) fun action => ?_
  refine ensures_ensureOpen.bind fun _ => (ensures_of_looks fun s _ => ⟨_, yields_report _ s⟩).bind
    fun _ => ?_
  cases action with
  | delete =>
      refine (ensures_delete ident).bind fun b => ?_
      cases b with
      | true => exact ensures_pure fun _ h => h
      | false => exact ensures_fail fun _ h => h
  | onTask a => exact ensures_actOnItem a ident

/-- A merge that settles no conflict about a record of a name that no file can have stores what it settles
in order, or stores nothing. -/
theorem InOrder.mergeAll (h : InOrder s) (conflicts : List Conflict)
    (hnames : ∀ x ∈ (run (Merge.mergeAll conflicts) (s, {})).state.2.resolved, x.conflict.Storable) :
    InOrder (run (Merge.mergeAll conflicts) (s, {})).state.1 := by
  obtain ⟨m, w, hm⟩ := h.contents
  rcases Merge.mergeAll_yields h.registry w (yields_run (Merge.mergeAll conflicts) (s, {})) with
    ⟨f, -, hst | hst⟩ | ⟨f, -, x, hx, -, hname⟩ | ⟨b, batch, d, n, sound, -, hst, w', hstorable, -⟩
  · rw [hst]
    exact h
  · rw [hst]
    exact h.around rfl rfl h.clock
  · exact absurd (hnames x hx) hname
  · rw [hst]
    refine ⟨h.registry, h.clock, _, w', hm.appliedAll fun c hc v hv => ?_⟩
    obtain ⟨r, -, i, blob, -, hmerged, hb, rfl⟩ := sound.mem_changes hc
    cases hv
    exact ⟨i, hmerged.filed (hstorable.fits _ hc nofun) hb⟩

/-! ## Reachable sessions -/

/-- A step of a session: an operation on items, whether it fails or not; a merge, whether it fails or not,
that settles no conflict about a record of a name that no file can have; or any change of what is around
the repository. -/
inductive Session.Step : Session → Session → Prop
  | create (s : Session) (kind : Text) (form : Form) : Step s (run (Store.create kind form) s).state
  | update (s : Session) (ident : Text) (form : Form) : Step s (run (Store.update ident form) s).state
  | delete (s : Session) (ident : Text) : Step s (run (Store.delete ident) s).state
  | dispatch (s : Session) (name ident : Text) : Step s (run (Dispatch.dispatch name ident) s).state
  | merge (s : Session) (conflicts : List Conflict)
      (hnames : ∀ x ∈ (run (Merge.mergeAll conflicts) (s, {})).state.2.resolved, x.conflict.Storable) :
      Step s (run (Merge.mergeAll conflicts) (s, {})).state.1
  | around {s s' : Session} (hreg : s'.registry = s.registry) (hdisk : s'.disk = s.disk)
      (hclock : s'.clock.now.Recordable) : Step s s'

theorem InOrder.of_ensures {α : Type} {p : Procedure Session α} (h : InOrder s)
    (hp : p.Ensures InOrder (fun _ => InOrder) InOrder) : InOrder (run p s).state := by
  have hpost := hp s _ _ h (yields_run p s)
  cases hr : (run p s).result with
  | ok a => rw [hr] at hpost; exact hpost
  | error e => rw [hr] at hpost; exact hpost

/-- **One step.** Every step leaves a session in order. -/
theorem InOrder.step (h : InOrder s) (hs : s.Step s') : InOrder s' := by
  cases hs with
  | create kind form => exact h.of_ensures (ensures_create kind form)
  | update ident form => exact h.of_ensures (ensures_update ident form)
  | delete ident => exact h.of_ensures (ensures_delete ident)
  | dispatch name ident => exact h.of_ensures (ensures_dispatch name ident)
  | merge conflicts hnames => exact h.mergeAll conflicts hnames
  | around hreg hdisk hclock => exact h.around hreg hdisk hclock

/-- **Run.** Every session that is reached from one in order is in order. -/
theorem InOrder.reachable (h : InOrder s) (hs : Relation.ReflTransGen Session.Step s s') :
    InOrder s' := by
  induction hs with
  | refl => exact h
  | tail _ hstep ih => exact ih.step hstep

/-- A session on an empty repository is in order. -/
theorem inOrder_empty (hreg : s.registry = .bundled) (hdisk : s.disk = {})
    (hclock : s.clock.now.Recordable) : InOrder s := by
  refine ⟨hreg, hclock, fun _ => none, ?_, by simp [AllFiled]⟩
  rw [hdisk]
  exact ⟨Disk.wellFormed_empty, Repository.represents_empty, by simp [Disk.node?, Repository.batchPath]⟩

/-- **The records of a repository.** Whatever operations and merges there were since the repository
was empty: no identifier has two record files, every record file is read as an item of its kind and
its identifier that is written as the same bytes, and no batch is left. -/
theorem reachable_records_in_order {s₀ : Session} (hreg : s₀.registry = .bundled)
    (hdisk : s₀.disk = {}) (hclock : s₀.clock.now.Recordable)
    (hs : Relation.ReflTransGen Session.Step s₀ s) :
    Tidy s.disk
      ∧ (∀ kind ident blob, RecordName.Valid kind ident →
        s.disk.node? [RecordName.file kind ident] = some (.file blob) →
        ∃ i, (run (Registry.decodeItem blob s.registry) ()).result = .ok i
          ∧ i.kind.name = kind ∧ i.ident = ident ∧ i.bytes = .ok blob
          ∧ ∃ n : Int, 1 ≤ n ∧ i.header.revision = .value n
            ∧ (i.header.parentRevision = .value none
              ∨ i.header.parentRevision = .value (some (n - 1))))
      ∧ ∀ batch, s.disk.node? (Repository.batchPath batch) = none := by
  have h := (inOrder_empty hreg hdisk hclock).reachable hs
  obtain ⟨m, w, hm⟩ := h.contents
  refine ⟨w.represents.tidy, fun kind ident blob hv hn => ?_, fun batch => ?_⟩
  · have hstored := w.represents.eq_some_iff.2 ⟨hv, hn⟩
    obtain ⟨i, hi⟩ := hm ident _ hstored
    have hdecode := hi.storable.decodeItem_bytes hi.bytes
    rw [← hi.recorded, ← h.registry] at hdecode
    exact ⟨i, hdecode.1, hi.kind, hi.ident, hi.bytes, hi.counted⟩
  · cases hn : s.disk.node? (Repository.batchPath batch) with
    | none => rfl
    | some n => exact absurd hn fun hn => w.others batch n hn

end InOrder

/-! ## A run -/

/-- A session that shows a shelf can write records. -/
theorem Shows.writable {s : Session} {h : Shelf} (hs : Shows s h) : Merge.Writable s where
  registry := hs.registry
  opened := hs.ready.closed
  attached := hs.ready.attached
  user := hs.user_eq ▸ hs.user
  wellFormed := hs.atRest.settled.wellFormed
  namesFree := fun n _ => by
    by_contra hn
    obtain ⟨node, hnode⟩ := Option.ne_none_iff_exists'.1 hn
    exact hs.atRest.settled.others _ node hnode
  noDirectory := fun _ _ => hs.represents.noDirectory
  noFile := hs.atRest.pending

/-- A step is the same whatever is made of its result. -/
theorem Session.Step.map {s : Session} {α β : Type} {p : Procedure Session α} (f : α → β)
    (h : s.Step (run p s).state) : s.Step (run (f <$> p) s).state := by
  have hmap := yields_run p s
  cases hr : (run p s).result with
  | ok a =>
      rw [hr] at hmap
      rwa [(hmap.map f).2]
  | error e =>
      rw [hr] at hmap
      rwa [(hmap.map_error f).2]

/-- A command that changes items. -/
def Command.Writes : Command → Prop
  | .create _ _ | .update _ _ | .delete _ | .dispatch _ _ => True
  | _ => False

theorem Session.Step.command {c : Command} (h : c.Writes) (s : Session) :
    s.Step (run c.inSession s).state := by
  cases c with
  | create kind form => exact .map Answer.item (.create s kind form)
  | update ident form => exact .map Answer.item (.update s ident form)
  | delete ident => exact .map Answer.flag (.delete s ident)
  | dispatch name ident => exact .map Answer.page (.dispatch s name ident)
  | _ => exact h.elim

/-- Commands that change items lead to a session that can be reached. -/
theorem reachable_answers {cs : List Command} (h : ∀ c ∈ cs, c.Writes) (s : Session) :
    Relation.ReflTransGen Session.Step s (answers Command.inSession cs s).2 := by
  induction cs generalizing s with
  | nil => exact .refl
  | cons c cs ih =>
      exact .head (.command (h c List.mem_cons_self) s) (ih (fun c' hc' => h c' (List.mem_cons_of_mem c hc')) _)

/-- Two items are created; the first is updated and an action is done on it, and the second is deleted. -/
def severalCommands : List Command :=
  [.create Kind.task.name [("name", "n")], .update (itemName 0) [("name", "m")],
    .dispatch "done" (itemName 0), .create Kind.page.name [("name", "Home"), ("text", "t")],
    .delete (itemName 1)]


theorem answers_severalCommands :
    (answers Command.onShelf severalCommands (Session.starting {}).emptyShelf).1.map Except.isOk
      = [true, true, true, true, true] := by decide +kernel

theorem proper_severalCommands : ∀ c ∈ severalCommands, c.Proper := by
  simp only [severalCommands, List.forall_mem_cons, Command.Proper, List.not_mem_nil, false_imp_iff,
    implies_true, and_true, Text.plain_ofString]

theorem user_severalCommands :
    (answers Command.onShelf severalCommands (Session.starting {}).emptyShelf).2.around.user = none := by
  decide +kernel

/-- All of the commands succeed, and the merge after them settles one conflict and hands over another: the
records are in order, and that of the merged task is among them. -/
theorem reachable_records_in_order_several :
    let after := answers Command.inSession severalCommands (.starting {})
    after.1.map Except.isOk = [true, true, true, true, true]
      ∧ ∃ name s' b blob i, (Merge.mergeAll Merge.twoConflicts).Yields (after.2, {}) (.ok name) (s', b)
        ∧ b.resolutions.map Merge.Resolution.state = [.resolved, .escalated]
        ∧ Tidy s'.disk ∧ (∀ batch, s'.disk.node? (Repository.batchPath batch) = none)
        ∧ s'.disk.node? [RecordName.file Kind.task.name "a"] = some (.file blob)
        ∧ (run (Registry.decodeItem blob s'.registry) ()).result = .ok i ∧ i.ident = "a" := by
  obtain ⟨s₀, hs₀⟩ : ∃ s₀, s₀ = Session.starting {} := ⟨_, rfl⟩
  have hclock : s₀.clock.now.Recordable := hs₀ ▸ Session.recordable_starting _
  have hanswers := answers_severalCommands
  have huser := user_severalCommands
  rw [← hs₀] at hanswers huser ⊢
  obtain ⟨hsame, hshows⟩ := (shows_emptyShelf (hs₀ ▸ rfl) (hs₀ ▸ rfl) (hs₀ ▸ ⟨rfl, rfl⟩) hclock
    (by simp [hs₀, Session.starting])).answers proper_severalCommands
  have hwrites : ∀ c ∈ severalCommands, c.Writes := by simp [severalCommands, Command.Writes]
  have hreach := reachable_answers hwrites s₀
  intro after
  obtain ⟨s, hs⟩ : ∃ s, s = after.2 := ⟨_, rfl⟩
  rw [← hs] at hshows hreach ⊢
  have hw := hshows.writable
  obtain ⟨name, s', b, i, e, hmerge, hb⟩ := hw.mergeAll_twoConflicts (hshows.user_eq.trans huser)
  rcases Merge.mergeAll_yields hw.registry hshows.atRest.settled hmerge with
    ⟨f, hf, -⟩ | ⟨f, hf, -⟩ | ⟨b', name', d, n, sound, -, hst, w', hstorable, -⟩
  · cases hf
  · cases hf
  · cases hst
    have hnames : ∀ x ∈ b'.finished.resolved, x.conflict.Storable := sound.names_of_fits hstorable.fits
    have hstep := Session.Step.merge s Merge.twoConflicts (by rw [hmerge.2]; exact hnames)
    rw [hmerge.2] at hstep
    obtain ⟨htidy, hrecords, hnone⟩ :=
      reachable_records_in_order (hs₀ ▸ rfl) (hs₀ ▸ rfl) hclock (hreach.tail hstep)
    have hmem : (⟨Merge.createdConflict "ann" "bob", .fieldUnion true, .ok i⟩ : Merge.Resolution)
        ∈ b'.resolutions := List.mem_of_mem_head? (congrArg List.head? hb)
    obtain ⟨-, blob, -, hstored⟩ := sound.appliedAll_eq _ hmem rfl
    obtain ⟨hvalid, hnode⟩ := w'.represents.eq_some_iff.1 hstored
    obtain ⟨i', hdecode, -, hident, -⟩ := hrecords _ _ blob hvalid hnode
    exact ⟨hsame ▸ hanswers, name, _, _, blob, i', hmerge, congrArg (List.map Merge.Resolution.state) hb,
      htidy, hnone, hnode, hdecode, hident⟩

/-- A merge in an empty repository that settles a conflict about a record with a null in its name leaves a
batch behind, at which every later opening fails. -/
theorem reachable_records_in_order_null :
    let s := (run (Merge.mergeAll [Merge.nullConflict]) (.starting {}, {})).state.1
    s.disk.node? (Repository.batchPath (batchName 0)) = some .directory
      ∧ (run Repository.recover s.disk).result = .error (.change .nullInName) := by
  obtain ⟨s₁, b, hmerge, hbatch, hrecover⟩ := Merge.mergeAll_nullConflict
  rw [hmerge.2]
  exact ⟨hbatch, hrecover.1⟩

end RecordStore
