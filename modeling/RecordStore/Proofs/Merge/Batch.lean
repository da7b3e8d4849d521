import RecordStore.Proofs.Conflict
import RecordStore.Proofs.Merge.Resolve
import RecordStore.Proofs.Session

/-!
# RecordStore.Proofs.Merge.Batch

A batch of conflicts is merged as a whole.  While the conflicts are settled one after the other, the
batch stays `Sound`: there is one resolution for each of them, and the list holds exactly the changes
of those that are resolved.  The list is handed over at the end, as one batch of the repository.

What may become of one conflict is said once (`Taken`), and so is how merging may end (`Ends`).
-/

namespace RecordStore

open Procedure

namespace Merge

open Repository (ProperChanges StorableChanges Contents Settled appliedAll appliedAll_of_mem)

/-! ## One conflict of a batch -/

/-- The ways in which a conflict is taken into a batch, each with the result and the batch that it
leaves. -/
inductive Taken (user : Option Text) (c : Conflict) (b : Batch) : Except Failure Unit → Batch → Prop
  /-- Its kind is not registered. -/
  | unregistered {f : Failure} (hget : Registry.bundled.get c.kind = .error f) :
      Taken user c b (.error f) b
  /-- It is settled or handed over. -/
  | kept {e : Registration} {o : Except Escalation Item} {l : ChangeList}
      (hget : Registry.bundled.get c.kind = .ok e)
      (hresolve : (resolve .bundled user e.merge c).Yields b.changes (o.mapError .unresolvable) l) :
      Taken user c b (.ok ()) ⟨b.resolutions ++ [⟨c, e.merge, o⟩], l⟩
  /-- It is neither, and ends the batch. -/
  | ended {e : Registration} {f : Failure} {l : ChangeList} (hget : Registry.bundled.get c.kind = .ok e)
      (hneither : ∀ x, f ≠ .unresolvable x)
      (hresolve : (resolve .bundled user e.merge c).Yields b.changes (.error f) l) :
      Taken user c b (.error f) { b with changes := l }

section Taken

variable {user : Option Text} {c : Conflict} {b b' : Batch} {r : Except Failure Unit}

theorem Taken.yields (h : Taken user c b r b') : (resolveOne .bundled user c).Yields b r b' := by
  have hattempt : ∀ {policy : MergePolicy} {out : Except Failure Item} {l : ChangeList},
      (resolve .bundled user policy c).Yields b.changes out l →
      (Procedure.attempt (Batch.onChanges (resolve .bundled user policy c))).Yields b (.ok out)
        { b with changes := l } := fun hresolve => (Yields.onPart hresolve).attempt
  unfold resolveOne
  cases h with
  | unregistered hget =>
      rw [hget]
      exact (yields_fail _ b).bind_error
  | @kept e outcome l hget hresolve =>
      rw [hget]
      refine yields_ofExcept_ok_bind_iff.2 (yields_report_bind_iff.2 ((hattempt hresolve).bind ?_))
      cases outcome <;> exact yields_modify _ _
  | @ended e f l hget hneither hresolve =>
      rw [hget]
      refine yields_ofExcept_ok_bind_iff.2 (yields_report_bind_iff.2 ((hattempt hresolve).bind ?_))
      cases f with
      | unresolvable x => exact absurd rfl (hneither x)
      | _ => exact ⟨rfl, rfl⟩

/-- A conflict is taken in one of these ways. -/
theorem exists_taken (user : Option Text) (c : Conflict) (b : Batch) : ∃ r b', Taken user c b r b' := by
  cases hget : Registry.bundled.get c.kind with
  | error f => exact ⟨_, _, .unregistered hget⟩
  | ok e =>
      rcases error_or_ok (resolve .bundled user e.merge c) b.changes with
        ⟨f, l, hresolve⟩ | ⟨i, l, hresolve⟩
      · by_cases hover : ∃ x, f = .unresolvable x
        · obtain ⟨x, rfl⟩ := hover
          exact ⟨_, _, .kept (o := .error x) hget hresolve⟩
        · exact ⟨_, _, .ended hget (not_exists.1 hover) hresolve⟩
      · exact ⟨_, _, .kept (o := .ok i) hget hresolve⟩

theorem resolveOne_yields_iff : (resolveOne .bundled user c).Yields b r b' ↔ Taken user c b r b' := by
  refine ⟨fun h => ?_, Taken.yields⟩
  obtain ⟨r', b'', ht⟩ := exists_taken user c b
  obtain ⟨rfl, rfl⟩ := h.unique ht.yields
  exact ht

end Taken

/-! ## Sound batches -/

/-- The change that a resolution puts into the list. -/
def Resolution.change? (r : Resolution) : Option Change :=
  match r.outcome with
  | .ok i => i.bytes.toOption.map (.update r.conflict.kind r.conflict.ident)
  | .error _ => none

/-- What is settled in a batch is one of its conflicts. -/
theorem Batch.conflict_mem {b : Batch} {r : Resolution} (h : r ∈ b.resolved) :
    r.conflict ∈ b.resolutions.map Resolution.conflict :=
  List.mem_map_of_mem (List.mem_of_mem_filter h)

/-- What a resolution says of its conflict: it is settled by an item that has bytes, or handed over
as it is. -/
def Resolution.Sound (r : Resolution) : Prop :=
  match r.outcome with
  | .ok i => Merged r.conflict i ∧ ∃ blob, i.bytes = .ok blob
  | .error e => e.ident = r.conflict.ident ∧ e.ours = r.conflict.ours ∧ e.theirs = r.conflict.theirs
    ∧ e.ancestor = r.conflict.ancestor

/-- A batch in which some conflicts are settled or handed over. -/
structure Batch.Sound (conflicts : List Conflict) (b : Batch) : Prop where
  conflicts : b.resolutions.map Resolution.conflict = conflicts
  resolutions : ∀ r ∈ b.resolutions, r.Sound
  changes : b.changes.changes = b.resolutions.filterMap Resolution.change?
  nodup : (b.changes.changes.map Change.ident).Nodup
  pending : b.changes.flushed = false

section Batch

variable {conflicts : List Conflict} {b b' : Batch} {c : Conflict} {user : Option Text}

theorem sound_empty : Batch.Sound [] {} :=
  ⟨rfl, by simp, rfl, List.nodup_nil, rfl⟩

/-- A conflict that is settled is added, with its change. -/
theorem Batch.Sound.resolved (s : b.Sound conflicts) {i : Item} {blob : Bytes} (hm : Merged c i)
    (hb : i.bytes = .ok blob) (ht : b.changes.Takes c.ident) (policy : MergePolicy) :
    Batch.Sound (conflicts ++ [c]) ⟨b.resolutions ++ [⟨c, policy, .ok i⟩],
      b.changes.added (.update c.kind c.ident blob)⟩ := by
  have hchange : Resolution.change? ⟨c, policy, .ok i⟩ = some (.update c.kind c.ident blob) := by
    simp [Resolution.change?, hb, Except.toOption]
  refine ⟨by simp [s.conflicts], ?_, ?_, ?_, s.pending⟩
  · intro r hr
    rcases List.mem_append.1 hr with hr | hr
    · exact s.resolutions r hr
    · obtain rfl := List.mem_singleton.1 hr
      exact ⟨hm, blob, hb⟩
  · simp [ChangeList.added, s.changes, hchange]
  · exact ht.nodup_added s.nodup

/-- A conflict that is handed over is added, without a change. -/
theorem Batch.Sound.escalated (s : b.Sound conflicts) {e : Escalation}
    (he : HandsOver c (.unresolvable e)) (policy : MergePolicy) :
    Batch.Sound (conflicts ++ [c]) { b with resolutions := b.resolutions ++ [⟨c, policy, .error e⟩] } := by
  refine ⟨by simp [s.conflicts], ?_, ?_, s.nodup, s.pending⟩
  · intro r hr
    rcases List.mem_append.1 hr with hr | hr
    · exact s.resolutions r hr
    · obtain rfl := List.mem_singleton.1 hr
      exact he e rfl
  · simp [s.changes, Resolution.change?]

/-- **One step.** A batch stays sound while one conflict more is settled or handed over. -/
theorem Batch.Sound.resolveOne (s : b.Sound conflicts)
    (h : (resolveOne .bundled user c).Yields b (.ok ()) b') : b'.Sound (conflicts ++ [c]) := by
  cases resolveOne_yields_iff.1 h with
  | @kept e outcome l _ hresolve =>
      rcases settles_of_resolve hresolve with ⟨i, blob, hr, hm, hb, ht, hl⟩ | ⟨f, hr, hl, hover⟩
      · cases outcome with
        | error x => cases hr
        | ok _ =>
            cases hr
            rw [hl]
            exact s.resolved hm hb ht e.merge
      · cases outcome with
        | ok _ => cases hr
        | error x =>
            cases hr
            rw [hl]
            exact s.escalated hover e.merge

/-- **Run.** When conflicts are settled or handed over in their order, the batch stays sound. -/
theorem Batch.Sound.resolveAll {cs : List Conflict} (s : b.Sound conflicts)
    (h : (resolveAll .bundled user cs).Yields b (.ok ()) b') : b'.Sound (conflicts ++ cs) := by
  induction cs generalizing b conflicts with
  | nil =>
      obtain ⟨-, rfl⟩ := yields_pure_iff.1 h
      simpa using s
  | cons c cs ih =>
      obtain ⟨_, b₁, hone, hrest⟩ := yields_bind_ok_iff.1 h
      have hall := ih (s.resolveOne hone) hrest
      simpa using hall

/-- Conflicts that stand behind others are settled or handed over after them. -/
theorem resolveAll_append_yields {registry : Registry} {cs cs' : List Conflict} {b'' : Batch}
    {r : Except Failure Unit} (h : (Merge.resolveAll registry user cs).Yields b (.ok ()) b')
    (h' : (Merge.resolveAll registry user cs').Yields b' r b'') :
    (Merge.resolveAll registry user (cs ++ cs')).Yields b r b'' := by
  induction cs generalizing b with
  | nil =>
      obtain ⟨-, rfl⟩ := yields_pure_iff.1 h
      exact h'
  | cons c cs ih =>
      obtain ⟨_, b₁, hone, hrest⟩ := yields_bind_ok_iff.1 h
      exact hone.bind (ih hrest)

/-- The changes of a batch are those of its merged items. -/
theorem Batch.Sound.mem_changes (s : b.Sound conflicts) {change : Change}
    (h : change ∈ b.changes.changes) : ∃ r ∈ b.resolutions, ∃ i blob, r.outcome = .ok i
      ∧ Merged r.conflict i ∧ i.bytes = .ok blob
      ∧ change = .update r.conflict.kind r.conflict.ident blob := by
  rw [s.changes, List.mem_filterMap] at h
  obtain ⟨r, hr, hchange⟩ := h
  have hsound := s.resolutions r hr
  unfold Resolution.Sound at hsound
  unfold Resolution.change? at hchange
  cases ho : r.outcome with
  | error e => rw [ho] at hchange; cases hchange
  | ok i =>
      rw [ho] at hsound hchange
      obtain ⟨hm, blob, hb⟩ := hsound
      simp only [hb, Except.toOption, Option.map_some, Option.some.injEq] at hchange
      exact ⟨r, hr, i, blob, ho, hm, hb, hchange.symm⟩

/-- Every merged item has its change in the list. -/
theorem Batch.Sound.change_mem (s : b.Sound conflicts) {r : Resolution} (hr : r ∈ b.resolutions)
    {i : Item} {blob : Bytes} (ho : r.outcome = .ok i) (hb : i.bytes = .ok blob) :
    .update r.conflict.kind r.conflict.ident blob ∈ b.changes.changes := by
  rw [s.changes, List.mem_filterMap]
  exact ⟨r, hr, by simp [Resolution.change?, ho, hb, Except.toOption]⟩

/-- The records that the list changes are those of the conflicts that are settled. -/
theorem Batch.Sound.map_ident (s : b.Sound conflicts) :
    b.changes.changes.map Change.ident = b.resolved.map fun r => r.conflict.ident := by
  have hident : ∀ r ∈ b.resolutions, (Resolution.change? r).map Change.ident
      = if r.state = .resolved then some r.conflict.ident else none := by
    intro r hr
    have hsound := s.resolutions r hr
    unfold Resolution.Sound at hsound
    unfold Resolution.change? Resolution.state
    cases ho : r.outcome with
    | error e => rfl
    | ok i =>
        rw [ho] at hsound
        obtain ⟨-, blob, hb⟩ := hsound
        simp [hb, Except.toOption, Change.ident]
  rw [s.changes, List.map_filterMap, Batch.resolved, ← List.filterMap_eq_map', List.filterMap_filter]
  simpa using List.filterMap_congr hident

/-- The list of a batch can be handed over. -/
theorem Batch.Sound.proper (s : b.Sound conflicts) : ProperChanges b.changes.changes where
  nodup := s.nodup
  valid := by
    intro change h
    obtain ⟨r, -, i, blob, -, hm, -, rfl⟩ := s.mem_changes h
    have hvalid := hm.regular.valid
    rw [hm.kind, hm.ident] at hvalid
    exact hvalid
  unpaired := by
    intro change h
    obtain ⟨r, -, i, blob, -, hm, -, rfl⟩ := s.mem_changes h
    have hunpaired := hm.regular.unpaired
    rw [hm.kind, hm.ident] at hunpaired
    exact ⟨hunpaired.1, hunpaired.2⟩

/-- The changes of a batch have the kinds and the identifiers of items. -/
theorem Batch.Sound.plain (s : b.Sound conflicts) : ∀ change ∈ b.changes.changes, change.Plain := by
  intro change h _
  obtain ⟨r, -, i, blob, -, hm, -, rfl⟩ := s.mem_changes h
  have hkind := hm.regular.header.kind.1
  have hident := hm.regular.header.ident.1
  exact ⟨hm.kind ▸ hkind, hm.ident ▸ hident⟩

/-- The path of a conflict ends with the name of its record, so that a record that is stored is stored
under its own name. -/
theorem Batch.Sound.kept (s : b.Sound conflicts) : ∀ change ∈ b.changes.changes, change.Kept := by
  intro change h hdata
  obtain ⟨hkind, hident⟩ := s.plain change h hdata
  obtain ⟨r, -, i, blob, -, -, -, rfl⟩ := s.mem_changes h
  exact RecordName.kept_file hkind hident r.conflict.slash_not_mem

/-- The list of a batch can be put in place if the records that it stores have names that files can
have. -/
theorem Batch.Sound.storable (s : b.Sound conflicts) (hnames : ∀ r ∈ b.resolved, r.conflict.Storable) :
    StorableChanges b.changes.changes where
  toProperChanges := s.proper
  fits := by
    intro change h _
    obtain ⟨r, hr, i, blob, ho, -, -, rfl⟩ := s.mem_changes h
    exact hnames r (List.mem_filter.2 ⟨hr, by simp [Resolution.state, ho]⟩)

/-- The records of a batch that fits have names that files can have. -/
theorem Batch.Sound.names_of_fits (s : b.Sound conflicts) (h : ∀ change ∈ b.changes.changes, change.Fits) :
    ∀ r ∈ b.resolved, r.conflict.Storable := by
  intro r hr
  obtain ⟨hr, hstate⟩ := List.mem_filter.1 hr
  have hsound := s.resolutions r hr
  unfold Resolution.Sound at hsound
  unfold Resolution.state at hstate
  cases ho : r.outcome with
  | error e => rw [ho] at hstate; simp at hstate
  | ok i =>
      rw [ho] at hsound
      obtain ⟨-, blob, hb⟩ := hsound
      exact h _ (s.change_mem hr ho hb) nofun

end Batch

/-! ## What a batch says -/

/-- What a batch says of a conflict is what settling it by the rule of its kind came to. -/
def Resolution.ComesFrom (user : Option Text) (x : Resolution) : Prop :=
  ∃ e l l', Registry.bundled.get x.conflict.kind = .ok e ∧ x.policy = e.merge
    ∧ (resolve .bundled user x.policy x.conflict).Yields l (x.outcome.mapError .unresolvable) l'

section ComesFrom

variable {b b' : Batch} {c : Conflict} {user : Option Text} {r : Except Failure Unit}

/-- **One step.** Whether a conflict is settled, handed over or neither, what the batch says of the
conflicts stays what settling them came to. -/
theorem comesFrom_resolveOne (hb : ∀ x ∈ b.resolutions, x.ComesFrom user)
    (h : (resolveOne .bundled user c).Yields b r b') : ∀ x ∈ b'.resolutions, x.ComesFrom user := by
  cases resolveOne_yields_iff.1 h with
  | unregistered | ended => exact hb
  | kept hget hresolve =>
      intro x hx
      rcases List.mem_append.1 hx with hx | hx
      · exact hb x hx
      · obtain rfl := List.mem_singleton.1 hx
        exact ⟨_, _, _, hget, rfl, hresolve⟩

/-- **Run.** By induction over the conflicts, a batch says of them what settling them came to. -/
theorem comesFrom_resolveAll {cs : List Conflict} (hb : ∀ x ∈ b.resolutions, x.ComesFrom user)
    (h : (resolveAll .bundled user cs).Yields b r b') : ∀ x ∈ b'.resolutions, x.ComesFrom user := by
  induction cs generalizing b with
  | nil =>
      obtain ⟨-, rfl⟩ := yields_pure_iff.1 h
      exact hb
  | cons c cs ih =>
      rcases yields_bind_iff.1 h with ⟨f, -, hf⟩ | ⟨_, b₁, hone, hrest⟩
      · exact comesFrom_resolveOne hb hf
      · exact ih (comesFrom_resolveOne hb hone) hrest

end ComesFrom

/-! ## Handing a batch over -/

section MergeAll

variable {waiting : Text → Node → Prop} {m : Contents} {s : Session} {conflicts : List Conflict}
  {st : Session × Batch}

/-- A batch whose list is handed over. -/
def Batch.finished (b : Batch) : Batch := { b with changes := { b.changes with flushed := true } }

/-- The ways in which merging conflicts comes to an end, each with the result and what is left. -/
inductive Ends (s : Session) (conflicts : List Conflict) :
    Except Failure (Option Text) → Session × Batch → Prop
  /-- The session is over. -/
  | closed (hclosed : s.closed = true) : Ends s conflicts (.error (.programming .sessionOver)) (s, {})
  /-- A conflict ends the batch. -/
  | unsettled {f : Failure} {b : Batch} (hopen : s.closed = false)
      (hall : (resolveAll s.registry s.user conflicts).Yields {} (.error f) b) :
      Ends s conflicts (.error f) (s, b)
  /-- There is no repository to write to. -/
  | detached {b : Batch} (hopen : s.closed = false) (hdetached : s.attached = false)
      (hall : (resolveAll s.registry s.user conflicts).Yields {} (.ok ()) b) :
      Ends s conflicts (.error (.programming .noRepository)) (s, b)
  /-- The changes are not taken. -/
  | unwritten {f : Failure} {b : Batch} {s' : Session} {l : ChangeList} (hopen : s.closed = false)
      (hattached : s.attached = true)
      (hall : (resolveAll s.registry s.user conflicts).Yields {} (.ok ()) b)
      (hflush : ChangeList.flush.Yields (s, b.changes) (.error f) (s', l)) :
      Ends s conflicts (.error f) (s', b)
  /-- The changes are handed over. -/
  | written {name : Option Text} {b : Batch} {s' : Session} {l : ChangeList} (hopen : s.closed = false)
      (hattached : s.attached = true)
      (hall : (resolveAll s.registry s.user conflicts).Yields {} (.ok ()) b)
      (hflush : ChangeList.flush.Yields (s, b.changes) (.ok name) (s', l)) :
      Ends s conflicts (.ok name) (s', { b with changes := l })

theorem Ends.yields {r : Except Failure (Option Text)} (h : Ends s conflicts r st) :
    (mergeAll conflicts).Yields (s, {}) r st := by
  have hensure := ensureOpen_yields s
  have hrequire := requireRepository_yields s
  unfold mergeAll
  cases h with
  | closed hclosed =>
      rw [hclosed] at hensure
      exact hensure.onFirst.bind_error
  | unsettled hopen hall =>
      rw [hopen] at hensure
      exact hensure.onFirst.bind (yields_state_bind_iff.2 hall.onSecond.bind_error)
  | detached hopen hdetached hall =>
      rw [hopen] at hensure
      rw [hopen, hdetached] at hrequire
      refine hensure.onFirst.bind (yields_state_bind_iff.2 (hall.onSecond.bind ?_))
      exact hrequire.onFirst.bind_error
  | unwritten hopen hattached hall hflush =>
      rw [hopen] at hensure
      rw [hopen, hattached] at hrequire
      refine hensure.onFirst.bind (yields_state_bind_iff.2 (hall.onSecond.bind ?_))
      exact hrequire.onFirst.bind (yields_state_bind_iff.2 hflush.withLocal.onFirst.bind_error)
  | written hopen hattached hall hflush =>
      rw [hopen] at hensure
      rw [hopen, hattached] at hrequire
      refine hensure.onFirst.bind (yields_state_bind_iff.2 (hall.onSecond.bind ?_))
      refine hrequire.onFirst.bind (yields_state_bind_iff.2 (hflush.withLocal.onFirst.bind ?_))
      exact Yields.bind (yields_modify _ _).onSecond (yields_state_bind_iff.2
        (yields_report_bind_iff.2 (yields_pure _ _)))

/-- Merging comes to an end in one of these ways. -/
theorem exists_ends (s : Session) (conflicts : List Conflict) : ∃ r st, Ends s conflicts r st := by
  cases hc : s.closed with
  | true => exact ⟨_, _, .closed hc⟩
  | false =>
      rcases error_or_ok (resolveAll s.registry s.user conflicts) {} with ⟨f, b, hall⟩ | ⟨_, b, hall⟩
      · exact ⟨_, _, .unsettled hc hall⟩
      · cases ha : s.attached with
        | false => exact ⟨_, _, .detached hc ha hall⟩
        | true =>
            rcases error_or_ok ChangeList.flush (s, b.changes) with ⟨f, _, hflush⟩ | ⟨name, _, hflush⟩
            · exact ⟨_, _, .unwritten hc ha hall hflush⟩
            · exact ⟨_, _, .written hc ha hall hflush⟩

/-- **Ends.** What merging conflicts comes to. -/
theorem mergeAll_yields_iff {r : Except Failure (Option Text)} :
    (mergeAll conflicts).Yields (s, {}) r st ↔ Ends s conflicts r st := by
  refine ⟨fun h => ?_, Ends.yields⟩
  obtain ⟨r', st', he⟩ := exists_ends s conflicts
  obtain ⟨rfl, rfl⟩ := h.unique he.yields
  exact he

/-- What merging a batch may come to: a failure that leaves the session alone, but for the name of
the batch; a failure over a record whose name is one that no file can have; or a batch that is put in
place as a whole. -/
theorem mergeAll_yields (hreg : s.registry = .bundled) (w : Settled waiting m s.disk)
    {r : Except Failure (Option Text)} (h : (mergeAll conflicts).Yields (s, {}) r st) :
    (∃ f, r = .error f ∧ (st.1 = s ∨ st.1 = s.named))
      ∨ (∃ f, r = .error f ∧ ∃ x ∈ st.2.resolved, x.conflict ∈ conflicts ∧ ¬ x.conflict.Storable)
      ∨ ∃ (b : Batch) (batch : Option Text) (d : Disk) (n : Nat), b.Sound conflicts ∧ r = .ok batch
        ∧ st = ({ s with disk := d, nextBatch := n }, b.finished)
        ∧ Settled waiting (appliedAll m b.changes.changes) d ∧ StorableChanges b.changes.changes
        ∧ (batch = none ↔ b.changes.changes = []) := by
  have hsound : ∀ {b : Batch}, (resolveAll s.registry s.user conflicts).Yields {} (.ok ()) b →
      b.Sound conflicts := fun hall => sound_empty.resolveAll (hreg ▸ hall)
  cases mergeAll_yields_iff.1 h with
  | closed | unsettled | detached => exact .inl ⟨_, rfl, .inl rfl⟩
  | @unwritten f b s' l _ _ hall hflush =>
      have sound := hsound hall
      by_cases hnames : ∀ r ∈ b.resolved, r.conflict.Storable
      · rcases flush_settled w sound.pending (sound.storable hnames) with
          ⟨batch, d, n, hdone, -, -⟩ | ⟨f', hfail⟩
        · cases (hflush.unique hdone).1
        · have hleft := congrArg Prod.fst (hflush.unique hfail).2
          exact .inl ⟨f, rfl, .inr hleft⟩
      · push Not at hnames
        obtain ⟨x, hx, hbad⟩ := hnames
        exact .inr (.inl ⟨f, rfl, x, hx, sound.conflicts ▸ Batch.conflict_mem hx, hbad⟩)
  | @written name b s' l _ _ hall hflush =>
      have sound := hsound hall
      have hstorable := storable_of_flush w.wellFormed sound.pending sound.proper sound.kept hflush
      rcases flush_settled w sound.pending hstorable with ⟨batch, d, n, hdone, w', hnone⟩ | ⟨f, hfail⟩
      · obtain ⟨hname, hleft⟩ := hflush.unique hdone
        cases hname
        cases hleft
        exact .inr (.inr ⟨b, name, d, n, sound, rfl, rfl, w', hstorable, hnone⟩)
      · cases (hflush.unique hfail).1

/-- What a merged batch says of its conflicts is what settling them came to, also when merging fails:
after the conflicts only the list of changes is touched. -/
theorem comesFrom_mergeAll (hreg : s.registry = .bundled) {r : Except Failure (Option Text)}
    (h : (mergeAll conflicts).Yields (s, {}) r st) : ∀ x ∈ st.2.resolutions, x.ComesFrom s.user := by
  have hfrom : ∀ {r' : Except Failure Unit} {b : Batch},
      (resolveAll s.registry s.user conflicts).Yields {} r' b → ∀ x ∈ b.resolutions, x.ComesFrom s.user :=
    fun hall => comesFrom_resolveAll (by simp) (hreg ▸ hall)
  cases mergeAll_yields_iff.1 h with
  | closed => simp
  | unsettled _ hall | detached _ _ hall | unwritten _ _ hall _ => exact hfrom hall
  | written _ _ hall _ => exact fun x hx => hfrom hall x hx

/-- What is settled is what its record holds afterwards. -/
theorem Batch.Sound.appliedAll_eq {b : Batch} (sound : b.Sound conflicts) (m : Contents) {x : Resolution}
    (hx : x ∈ b.resolutions) {i : Item} (ho : x.outcome = .ok i) : Merged x.conflict i ∧ ∃ blob,
      i.bytes = .ok blob
        ∧ appliedAll m b.changes.changes x.conflict.ident = some (x.conflict.kind, blob) := by
  have hsound := sound.resolutions x hx
  unfold Resolution.Sound at hsound
  rw [ho] at hsound
  obtain ⟨hm, blob, hbytes⟩ := hsound
  exact ⟨hm, blob, hbytes, appliedAll_of_mem m (sound.change_mem hx ho hbytes) sound.nodup⟩

/-- What is settled is stored. -/
theorem Batch.Sound.stored {b : Batch} (sound : b.Sound conflicts) {d : Disk}
    (w : Settled waiting (appliedAll m b.changes.changes) d) {x : Resolution} (hx : x ∈ b.resolutions)
    {i : Item} (ho : x.outcome = .ok i) : Merged x.conflict i ∧ ∃ blob, i.bytes = .ok blob
      ∧ Repository.read x.conflict.ident d = .ok (some blob) := by
  obtain ⟨hm, blob, hbytes, hstored⟩ := sound.appliedAll_eq m hx ho
  have hread := w.represents.read_eq x.conflict.ident
  rw [hstored] at hread
  exact ⟨hm, blob, hbytes, hread⟩

end MergeAll

end Merge

end RecordStore
