import RecordStore.Proofs.ChangeList
import RecordStore.Proofs.Session

/-!
# RecordStore.Proofs.ChangeList.History

What becomes of a list of changes, whatever is asked of it: changes are added, items are written,
records are deleted, and the list is handed over, in any order.  Each request has one of the effects
that `Effect` lists (`Request.effect`).  By induction over the requests the list holds the changes that
were accepted (`History.changes_eq`), and counts as handed over from the first request for it on
(`History.flushed_iff`).

What happens to the session between two requests does not matter, so nothing is asked of it.
-/

namespace RecordStore.ChangeList

open Procedure

/-! ## Requests -/

/-- What can be asked of a list of changes. -/
inductive Request where
  | append (c : Change)
  | write (i : Item) (op : Operation)
  | delete (kind ident : Text)
  | flush

namespace Request

/-- What a request does with a list next to a session; handing the list over may name a batch. -/
def perform : Request → Procedure (Session × ChangeList) (Option Text)
  | append c => do
    Procedure.onSecond (ChangeList.append c)
    return none
  | write i op => do
    Procedure.onSecond (ChangeList.write i op)
    return none
  | delete kind ident => do
    Procedure.onSecond (ChangeList.delete kind ident)
    return none
  | flush => ChangeList.flush

/-- The change that a request brings, if one can be made of it; handing over brings none. -/
def change : Request → Except Failure (Option Change)
  | append c => .ok (some c)
  | write i op => do
    let blob ← i.bytes
    some <$> Change.make op i.kind.name i.ident (some blob)
  | delete kind ident => .ok (some (.delete kind ident))
  | flush => .ok none

/-- The change that a request added to the list, by its result. -/
def accepted? (request : Request) (r : Except Failure (Option Text)) : Option Change :=
  match r, request.change with
  | .ok _, .ok c? => c?
  | _, _ => none

theorem change_of_accepted (request : Request) {r : Except Failure (Option Text)} {c : Change}
    (h : request.accepted? r = some c) : request.change = .ok (some c) := by
  unfold accepted? at h
  split at h
  · rename_i c? hc
    rw [hc, h]
  · cases h

theorem ne_flush {request : Request} (h : request.change ≠ .ok none) : request ≠ .flush := by
  rintro rfl
  exact h rfl

end Request

/-- Changes reach the repository of a session as one batch, in their order; without changes there is
no batch. -/
def HandedOver (changes : List Change) (s : Session) (batch : Option Text) (s' : Session) : Prop :=
  match batch with
  | none => changes = [] ∧ s' = s
  | some name => changes ≠ [] ∧ (Session.applyChanges changes).Yields s (.ok name) s'

/-- What a request comes to, for a list next to a session. -/
inductive Effect (s : Session) (l : ChangeList) (request : Request) :
    Except Failure (Option Text) → Session → ChangeList → Prop where
  /-- The change is added at the end. -/
  | added (c : Change) : request.change = .ok (some c) → l.Takes c.ident →
      Effect s l request (.ok none) s (l.added c)
  /-- No change can be made. -/
  | unmade (e : Failure) : request.change = .error e → Effect s l request (.error e) s l
  /-- The list does not take the change. -/
  | refused (c : Change) (fault : ProgrammingFault) : request.change = .ok (some c) → ¬ l.Takes c.ident →
      Effect s l request (.error (.programming fault)) s l
  /-- The list is handed over. -/
  | handed (batch : Option Text) (s' : Session) : request = .flush → l.flushed = false →
      HandedOver l.changes s batch s' → Effect s l request (.ok batch) s' { l with flushed := true }
  /-- The repository does not take the batch. -/
  | failed (e : Failure) (s' : Session) : request = .flush → l.flushed = false →
      Effect s l request (.error e) s' l
  /-- The list was handed over before. -/
  | repeated : request = .flush → l.flushed = true →
      Effect s l request (.error (.programming .flushedTwice)) s l

section Effects

variable {s s' : Session} {l l' : ChangeList} {r : Except Failure (Option Text)} {request : Request}

/-- A step on the list alone leaves the session as it is, and names no batch. -/
theorem yields_of_onList {p : Procedure ChangeList Unit}
    (h : (onSecond p >>= fun _ => pure none : Procedure (Session × ChangeList) (Option Text)).Yields
      (s, l) r (s', l')) : s' = s ∧ ∃ x, p.Yields l x l' ∧ r = x.map fun _ => none := by
  rcases yields_bind_iff.1 h with ⟨e, rfl, he⟩ | ⟨_, st, hok, hpure⟩
  · obtain ⟨l₁, hp, heq⟩ := yields_onSecond_iff.1 he
    cases heq
    exact ⟨rfl, _, hp, rfl⟩
  · obtain ⟨l₁, hp, rfl⟩ := yields_onSecond_iff.1 hok
    obtain ⟨rfl, heq⟩ := yields_pure_iff.1 hpure
    cases heq
    exact ⟨rfl, _, hp, rfl⟩

/-- A change that is brought is added, or it is refused. -/
theorem effect_of_append {c : Change} (hc : request.change = .ok (some c)) {x : Except Failure Unit}
    (h : (append c).Yields l x l') : Effect s l request (x.map fun _ => none) s l' := by
  rcases append_yields_iff.1 h with ⟨ht, rfl, rfl⟩ | ⟨hnot, rfl, fault, rfl, -⟩
  · exact .added c hc ht
  · exact .refused c fault hc hnot

/-- An item is written as the change that stores it, if there is one. -/
theorem effect_of_write {i : Item} {op : Operation} {x : Except Failure Unit}
    (h : (write i op).Yields l x l') : Effect s l (.write i op) (x.map fun _ => none) s l' := by
  have hchange : ∀ {blob : Bytes}, i.bytes = .ok blob → (Request.write i op).change
      = (Change.make op i.kind.name i.ident (some blob)).map some := by
    intro blob hb
    rw [Request.change, hb]
    rfl
  cases hb : i.bytes with
  | error e =>
      obtain ⟨rfl, rfl⟩ := h.unique (write_yields_error hb)
      exact .unmade e (by rw [Request.change, hb]; rfl)
  | ok blob =>
      have hencode := i.encode_yields
      rw [hb] at hencode
      cases hc : Change.make op i.kind.name i.ident (some blob) with
      | error e =>
          have hwrite : (write i op).Yields l (.error e) l := by
            refine hencode.lift.bind ?_
            rw [hc]
            exact (yields_fail e l).bind_error
          obtain ⟨rfl, rfl⟩ := h.unique hwrite
          exact .unmade e (by rw [hchange hb, hc]; rfl)
      | ok c =>
          have happend := yields_run (append c) l
          obtain ⟨rfl, rfl⟩ := h.unique (write_yields hb hc happend)
          exact effect_of_append (by rw [hchange hb, hc]; rfl) happend

/-- A list is handed over if it was not before, and the repository takes the batch. -/
theorem effect_of_flush (h : ChangeList.flush.Yields (s, l) r (s', l')) : Effect s l .flush r s' l' := by
  cases hl : l.flushed with
  | true =>
      obtain ⟨rfl, heq⟩ := h.unique (flush_yields_again hl)
      cases heq
      exact .repeated rfl hl
  | false =>
      by_cases hempty : l.changes = []
      · obtain ⟨rfl, heq⟩ := h.unique (flush_yields_empty hl hempty)
        cases heq
        exact .handed none s rfl hl ⟨hempty, rfl⟩
      · rcases error_or_ok (Repository.apply (batchName s.nextBatch) l.changes) s.disk with
          ⟨e, d, happly⟩ | ⟨name, d, happly⟩
        · obtain ⟨rfl, heq⟩ := h.unique (flush_yields hl hempty happly)
          cases heq
          exact .failed e _ rfl hl
        · obtain ⟨rfl, heq⟩ := h.unique (flush_yields hl hempty happly)
          cases heq
          exact .handed (some name) _ rfl hl ⟨hempty, applyChanges_yields happly⟩

/-- **Step.** Every request has one of the effects. -/
theorem Request.effect (h : request.perform.Yields (s, l) r (s', l')) : Effect s l request r s' l' := by
  cases request with
  | append c =>
      obtain ⟨rfl, x, hx, rfl⟩ := yields_of_onList h
      exact effect_of_append rfl hx
  | write i op =>
      obtain ⟨rfl, x, hx, rfl⟩ := yields_of_onList h
      exact effect_of_write hx
  | delete kind ident =>
      obtain ⟨rfl, x, hx, rfl⟩ := yields_of_onList h
      exact effect_of_append rfl hx
  | flush => exact effect_of_flush h

/-! The rules of a step, read off its effect. -/

/-- **Step.** What is accepted comes at the end of the list, and nothing else changes there. -/
theorem Effect.changes_eq (h : Effect s l request r s' l') :
    l'.changes = l.changes ++ (request.accepted? r).toList := by
  cases h with
  | added c hc ht => simp [ChangeList.added, Request.accepted?, hc]
  | handed batch s' hr hl hhand => simp [Request.accepted?, Request.change, hr]
  | unmade e hc => simp [Request.accepted?]
  | refused c fault hc hnot => simp [Request.accepted?]
  | failed e s' hr hl => simp [Request.accepted?]
  | repeated hr hl => simp [Request.accepted?]

/-- **Step.** A list of changes with different identifiers stays one. -/
theorem Effect.nodup (h : Effect s l request r s' l') (hl : (l.changes.map Change.ident).Nodup) :
    (l'.changes.map Change.ident).Nodup := by
  cases h with
  | added c hc ht => exact ht.nodup_added hl
  | _ => exact hl

/-- **Step.** Only handing over touches the session. -/
theorem Effect.session_eq (h : Effect s l request r s' l') (hr : request ≠ .flush) : s' = s := by
  cases h with
  | handed batch s' hflush => exact absurd hflush hr
  | failed e s' hflush => exact absurd hflush hr
  | _ => rfl

/-- **Step.** A change is accepted if it can be made, and the list takes it. -/
theorem Effect.ok_iff (h : Effect s l request r s' l') (hr : request ≠ .flush) :
    (∃ batch, r = .ok batch) ↔ ∃ c, request.change = .ok (some c) ∧ l.Takes c.ident := by
  cases h with
  | added c hc ht => exact ⟨fun _ => ⟨c, hc, ht⟩, fun _ => ⟨none, rfl⟩⟩
  | unmade e hc => simp [hc]
  | refused c fault hc hnot =>
      constructor
      · rintro ⟨batch, hb⟩
        cases hb
      · rintro ⟨c', hc', ht⟩
        rw [hc] at hc'
        cases hc'
        exact absurd ht hnot
  | handed batch s' hflush => exact absurd hflush hr
  | failed e s' hflush => exact absurd hflush hr
  | repeated hflush => exact absurd hflush hr

/-- **Step.** A list that is handed over reaches the repository as it is. -/
theorem Effect.handedOver {batch : Option Text} (h : Effect s l .flush (.ok batch) s' l') :
    HandedOver l.changes s batch s' := by
  cases h with
  | added c hc => cases hc
  | handed batch s' hr hl hhand => exact hhand

/-- **Step.** A list that was handed over refuses every request. -/
theorem Effect.closed (h : Effect s l request r s' l') (hl : l.flushed = true) :
    ∃ e, r = .error e ∧ ((∃ fault, e = .programming fault) ∨ request.change = .error e) := by
  cases h with
  | added c hc ht =>
      rw [ht.1] at hl
      cases hl
  | unmade e hc => exact ⟨e, rfl, .inr hc⟩
  | refused c fault hc hnot => exact ⟨_, rfl, .inl ⟨fault, rfl⟩⟩
  | handed batch s' hr hopen =>
      rw [hopen] at hl
      cases hl
  | failed e s' hr hopen =>
      rw [hopen] at hl
      cases hl
  | repeated => exact ⟨_, rfl, .inl ⟨_, rfl⟩⟩

/-! The rules that need the repository to take the batch, if one is handed over. -/

section Taken

variable (h : Effect s l request r s' l')
  (taken : request = .flush → l.flushed = false → ∃ batch, r = .ok batch)
include h taken

/-- **Step.** A list counts as handed over from the request for it on. -/
theorem Effect.flushed_iff : l'.flushed = true ↔ l.flushed = true ∨ request = .flush := by
  cases h with
  | added c hc ht => simp [ChangeList.added, Request.ne_flush (by simp [hc] : request.change ≠ .ok none)]
  | unmade e hc => simp [Request.ne_flush (by simp [hc] : request.change ≠ .ok none)]
  | refused c fault hc hnot => simp [Request.ne_flush (by simp [hc] : request.change ≠ .ok none)]
  | handed batch s' hr hl hhand => simp [hr]
  | failed e s' hr hl =>
      obtain ⟨batch, hb⟩ := taken hr hl
      cases hb
  | repeated hr hl => simp [hl]

/-- **Step.** A request that fails changes nothing. -/
theorem Effect.unchanged {e : Failure} (he : r = .error e) : s' = s ∧ l' = l := by
  cases h with
  | added c hc ht => cases he
  | handed batch s' hr hl hhand => cases he
  | failed f s' hr hl =>
      obtain ⟨batch, hb⟩ := taken hr hl
      cases hb
  | _ => exact ⟨rfl, rfl⟩

end Taken

end Effects

/-! ## Histories -/

/-- A request that was made of a list, with what it came to.  The repository takes the batch, if one
is handed over. -/
structure Step where
  request : Request
  before : Session × ChangeList
  result : Except Failure (Option Text)
  after : Session × ChangeList
  yields : request.perform.Yields before result after
  taken : request = .flush → before.2.flushed = false → ∃ batch, result = .ok batch

/-- The steps of a list, one after the other.  The session may be any at each of them. -/
inductive History : ChangeList → List Step → ChangeList → Prop where
  | nil (l : ChangeList) : History l [] l
  | cons {l' : ChangeList} (x : Step) (steps : List Step) :
      History x.after.2 steps l' → History x.before.2 (x :: steps) l'

namespace Step

/-- The change that a step added. -/
def accepted? (x : Step) : Option Change := x.request.accepted? x.result

theorem effect (x : Step) : Effect x.before.1 x.before.2 x.request x.result x.after.1 x.after.2 :=
  x.request.effect x.yields

end Step

/-- The changes that were added, in their order. -/
def accepted (steps : List Step) : List Change := steps.filterMap Step.accepted?

/-- Whether the list is handed over in one of the steps. -/
def HasFlush (steps : List Step) : Prop := ∃ x ∈ steps, x.request = .flush

theorem accepted_cons (x : Step) (steps : List Step) :
    accepted (x :: steps) = x.accepted?.toList ++ accepted steps := by
  cases h : x.accepted? <;> simp [accepted, h]

namespace History

variable {x : Step} {steps earlier later : List Step} {l l' : ChangeList}

/-- A history up to a step leads to what the step finds. -/
theorem upTo (h : History l (earlier ++ x :: later) l') : History l earlier x.before.2 := by
  induction earlier generalizing l with
  | nil =>
      cases h with
      | cons _ _ _ => exact .nil _
  | cons y earlier ih =>
      cases h with
      | cons _ _ hrest => exact .cons y earlier (ih hrest)

/-- **Run.** The list holds what was accepted, in its order. -/
theorem changes_eq (h : History l steps l') : l'.changes = l.changes ++ accepted steps := by
  induction h with
  | nil l => simp [accepted]
  | cons x steps _ ih =>
      rw [ih, x.effect.changes_eq, accepted_cons, List.append_assoc]
      rfl

/-- **Run.** The identifiers in the list are different. -/
theorem nodup (h : History l steps l') (hl : (l.changes.map Change.ident).Nodup) :
    (l'.changes.map Change.ident).Nodup := by
  induction h with
  | nil l => exact hl
  | cons x steps _ ih => exact ih (x.effect.nodup hl)

/-- **Run.** A list counts as handed over from the first request for it on. -/
theorem flushed_iff (h : History l steps l') :
    l'.flushed = true ↔ l.flushed = true ∨ HasFlush steps := by
  induction h with
  | nil l => simp [HasFlush]
  | cons x steps _ ih =>
      rw [ih, x.effect.flushed_iff x.taken]
      simp [HasFlush, or_assoc]

end History

/-! ## The life of a list -/

/-- What a step is to a list that was new before the earlier steps. -/
structure AppendOnly (earlier : List Step) (x : Step) : Prop where
  /-- The list holds what was accepted before. -/
  holds : x.before.2.changes = accepted earlier
  /-- No two changes have the same identifier. -/
  distinct : (x.after.2.changes.map Change.ident).Nodup
  /-- The list stays as it is, or the change comes at its end. -/
  grows : x.after.2.changes = x.before.2.changes
    ∨ ∃ c, x.request.change = .ok (some c) ∧ x.after.2.changes = x.before.2.changes ++ [c]
  /-- A request that fails changes neither the list nor the repository. -/
  refused : ∀ e, x.result = .error e → x.after = x.before
  /-- The repository is reached by handing the list over only. -/
  quiet : x.request ≠ .flush → x.after.1 = x.before.1
  /-- Before the list is handed over, it takes every change of a new identifier. -/
  takes : ¬ HasFlush earlier → x.request ≠ .flush →
    ((∃ batch, x.result = .ok batch)
      ↔ ∃ c, x.request.change = .ok (some c) ∧ c.ident ∉ (accepted earlier).map Change.ident)
  /-- What is handed over first are the accepted changes, as one batch. -/
  handed : ¬ HasFlush earlier → x.request = .flush →
    ∃ batch, x.result = .ok batch ∧ HandedOver (accepted earlier) x.before.1 batch x.after.1
  /-- From then on every request fails. -/
  closed : HasFlush earlier → ∃ e, x.result = .error e
    ∧ ((∃ fault, e = .programming fault) ∨ x.request.change = .error e)

/-- A list of changes is only added to, and reaches the repository at most once: whatever is asked of
a new list, and in whatever order, every step is as `AppendOnly` says. -/
theorem history_appendOnly {earlier later : List Step} {x : Step} {l : ChangeList}
    (h : History {} (earlier ++ x :: later) l) : AppendOnly earlier x := by
  have hbefore := h.upTo
  have hchanges : x.before.2.changes = accepted earlier := hbefore.changes_eq
  have hnodup : (x.before.2.changes.map Change.ident).Nodup := hbefore.nodup List.nodup_nil
  have hflushed : x.before.2.flushed = true ↔ HasFlush earlier := by
    simpa using hbefore.flushed_iff
  have hopen : ¬ HasFlush earlier → x.before.2.flushed = false := fun hfirst =>
    Bool.eq_false_iff.2 fun hdone => hfirst (hflushed.1 hdone)
  refine ⟨hchanges, x.effect.nodup hnodup, ?grows, ?refused, x.effect.session_eq, ?takes, ?handed, ?closed⟩
  case grows =>
    have hgrown := x.effect.changes_eq
    cases hc : x.request.accepted? x.result with
    | none => exact .inl (by simpa [hc] using hgrown)
    | some c => exact .inr ⟨c, x.request.change_of_accepted hc, by simpa [hc] using hgrown⟩
  case refused =>
    intro e he
    obtain ⟨hs, hl⟩ := x.effect.unchanged x.taken he
    exact Prod.ext hs hl
  case takes =>
    intro hfirst hr
    rw [x.effect.ok_iff hr]
    simp only [Takes, hopen hfirst, holds_eq_false_iff, hchanges, true_and]
  case handed =>
    intro hfirst hr
    obtain ⟨batch, hb⟩ := x.taken hr (hopen hfirst)
    have heffect := x.effect
    rw [hr, hb] at heffect
    exact ⟨batch, hb, hchanges ▸ heffect.handedOver⟩
  case closed =>
    intro hdone
    exact x.effect.closed (hflushed.2 hdone)

/-- A step that leaves the session alone, on a list. -/
def Step.onList {l l' : ChangeList} {r : Except Failure Unit} (s : Session) (c : Change)
    (h : (append c).Yields l r l') : Step where
  request := .append c
  before := (s, l)
  result := r.map fun _ => none
  after := (s, l')
  yields := by
    cases r with
    | ok _ => exact h.onSecond.bind (yields_pure _ _)
    | error e => exact h.onSecond.bind_error
  taken := fun h => nomatch h

/-- A change is added, and added once more, which is refused; then the list is handed over, as a batch
of one, and the change is refused again. -/
theorem added_twice_and_handed_over :
    let c : Change := .create Kind.page.name "a" []
    ∃ (first second handed last : Step) (l : ChangeList),
      History {} [first, second, handed, last] l
        ∧ [first, second, handed, last].map Step.request = [.append c, .append c, .flush, .append c]
        ∧ accepted [first, second, handed, last] = [c]
        ∧ AppendOnly [first, second] handed ∧ AppendOnly [first, second, handed] last := by
  intro c
  have happend : (append c).Yields {} (.ok ()) { changes := [c] } := append_yields ⟨rfl, rfl⟩
  have hagain := yields_run (append c) { changes := [c] }
  have hlate := yields_run (append c) { changes := [c], flushed := true }
  have hstorable : Repository.StorableChanges [c] :=
    ⟨⟨by decide, by decide, by decide⟩, by decide +kernel⟩
  let s : Session := .starting {}
  obtain ⟨d, happly, -⟩ := Repository.atRest_empty.apply_yields (unpaired_batchName s.nextBatch) hstorable
  have hflush := flush_yields (s := s) (l := { changes := [c] }) rfl (by simp) happly
  let handed : Step := ⟨.flush, (s, { changes := [c] }), _, _, hflush, fun _ _ => ⟨_, rfl⟩⟩
  let first := Step.onList s c happend
  let second := Step.onList s c hagain
  let last := Step.onList s c hlate
  have hhistory : History {} [first, second, handed, last] { changes := [c], flushed := true } :=
    .cons first _ (.cons second _ (.cons handed _ (.cons last [] (.nil _))))
  have hhanded : AppendOnly [first, second] handed := history_appendOnly hhistory
  have hlast : AppendOnly [first, second, handed] last := history_appendOnly hhistory
  exact ⟨first, second, handed, last, _, hhistory, rfl, rfl, hhanded, hlast⟩

end RecordStore.ChangeList
