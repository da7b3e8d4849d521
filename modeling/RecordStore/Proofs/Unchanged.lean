import RecordStore.Proofs.Clean
import RecordStore.Proofs.Repository.Faults

/-!
# RecordStore.Proofs.Unchanged

A request that fails leaves the repository as it was, whatever it fails by, short of a fault of the
storage and of a null in the name of a record.  The parts of a request only look at the disk (`Keeps`),
but for one: handing a change list over.  That part fails in its files (`Failure.OfFiles`), or before it
does anything, and whatever stands behind it never fails; so every request is spared (`Spares`), by one
rule for each way in which requests are put together.  Nothing is asked of the kinds that are registered,
of the templates or of the records.
-/

namespace RecordStore

open Procedure

/-! ## Keeping a part of the state -/

namespace Procedure

section Keeping

variable {σ τ υ α β : Type} {v : σ → υ} {p : Procedure σ α}

/-- A procedure that leaves a part of the state as it is, however it ends. -/
def Keeps (v : σ → υ) (p : Procedure σ α) : Prop := ∀ s r s', p.Yields s r s' → v s' = v s

/-- From a state on, every failure but one of handling files leaves a part of the state as it is. -/
def Spares (v : σ → υ) (s : σ) (p : Procedure σ α) : Prop :=
  ∀ e s', p.Yields s (.error e) s' → e.OfFiles ∨ v s' = v s

/-- A procedure that does not fail. -/
def NeverFails (p : Procedure σ α) : Prop := p.FailsBy fun _ => False

theorem keeps_of_yields (h : ∀ s, ∃ r, p.Yields s r s) : p.Keeps v := by
  intro s r s' hr
  obtain ⟨r', hr'⟩ := h s
  rw [(hr.unique hr').2]

theorem Keeps.bind {f : α → Procedure σ β} (hp : p.Keeps v) (hf : ∀ a, (f a).Keeps v) :
    (p >>= f).Keeps v := by
  intro s r s' h
  rcases yields_bind_iff.1 h with ⟨e, -, he⟩ | ⟨a, s₁, ha, hrest⟩
  · exact hp _ _ _ he
  · exact (hf a _ _ _ hrest).trans (hp _ _ _ ha)

theorem keeps_pure (a : α) : (pure a : Procedure σ α).Keeps v :=
  keeps_of_yields fun s => ⟨_, yields_pure a s⟩

theorem keeps_fail (e : Failure) : (fail e : Procedure σ α).Keeps v :=
  keeps_of_yields fun s => ⟨_, yields_fail e s⟩

theorem keeps_ofExcept (x : Except Failure α) : (ofExcept x : Procedure σ α).Keeps v :=
  keeps_of_yields fun s => ⟨_, yields_ofExcept x s⟩

theorem keeps_report (e : Event) : (report e : Procedure σ Unit).Keeps v :=
  keeps_of_yields fun s => ⟨_, yields_report e s⟩

theorem keeps_state : (state : Procedure σ σ).Keeps v :=
  keeps_of_yields fun s => ⟨_, yields_state s⟩

theorem keeps_modify {f : σ → σ} (h : ∀ s, v (f s) = v s) : (modify f).Keeps v := by
  intro s r s' hr
  rw [(hr.unique (yields_modify f s)).2, h]

theorem keeps_lift (p : Traced α) : (p.lift : Procedure σ α).Keeps v :=
  fun _ _ _ hr => congrArg v (yields_lift_iff.1 hr).2

theorem keeps_runOn (t : τ) (p : Procedure τ α) : (runOn t p : Procedure σ (α × τ)).Keeps v :=
  keeps_of_yields fun _ => ⟨_, (yields_run p t).runOn⟩

/-- What leaves the whole state as it is leaves every condition true. -/
theorem Keeps.ensures {P : σ → Prop} (hp : p.Keeps id) : p.Ensures P (fun _ => P) P := by
  intro s r s' hs h
  have heq : s' = s := hp _ _ _ h
  cases r <;> rwa [heq]

theorem Keeps.map (hp : p.Keeps v) (g : α → β) : (g <$> p).Keeps v := hp.bind fun a => keeps_pure (g a)

theorem Keeps.discard (hp : p.Keeps v) : (Functor.discard p).Keeps v := hp.map _

theorem Keeps.onFirst (hp : p.Keeps v) : (onFirst p : Procedure (σ × τ) α).Keeps fun st => v st.1 := by
  rintro ⟨s, t⟩ r st h
  obtain ⟨s', hs, rfl⟩ := yields_onFirst_iff.1 h
  exact hp _ _ _ hs

theorem keeps_onSecond (p : Procedure τ α) :
    (onSecond p : Procedure (σ × τ) α).Keeps fun st => v st.1 := by
  rintro ⟨s, t⟩ r st h
  obtain ⟨t', -, rfl⟩ := yields_onSecond_iff.1 h
  rfl

theorem neverFails_of_yields (h : ∀ s, ∃ a s', p.Yields s (.ok a) s') : p.NeverFails := by
  intro s e s' hr
  obtain ⟨a, s₁, ha⟩ := h s
  cases (hr.unique ha).1

theorem neverFails_report (e : Event) : (report e : Procedure σ Unit).NeverFails := failsBy_report e

theorem neverFails_pure (a : α) : (pure a : Procedure σ α).NeverFails := failsBy_pure a

end Keeping

/-! ## Sparing a part of the state -/

section Sparing

variable {σ τ υ α β : Type} {v : σ → υ} {p : Procedure σ α} {s : σ}

theorem Keeps.spares (hp : p.Keeps v) : p.Spares v s := fun _ _ h => .inr (hp _ _ _ h)

/-- What is spared may come behind what only looks. -/
theorem Spares.after {f : α → Procedure σ β} (hp : p.Keeps v)
    (hf : ∀ a s', p.Yields s (.ok a) s' → v s' = v s → (f a).Spares v s') : (p >>= f).Spares v s := by
  intro e s' h
  rcases yields_bind_iff.1 h with ⟨e', -, he⟩ | ⟨a, s₁, ha, hrest⟩
  · exact .inr (hp _ _ _ he)
  · have hv := hp _ _ _ ha
    exact (hf a s₁ ha hv e s' hrest).imp_right fun h => h.trans hv

/-- Behind what is spared there may come what never fails. -/
theorem Spares.before {f : α → Procedure σ β} (hp : p.Spares v s) (hf : ∀ a, (f a).NeverFails) :
    (p >>= f).Spares v s := by
  intro e s' h
  rcases yields_bind_iff.1 h with ⟨e', he, hfail⟩ | ⟨a, s₁, -, hrest⟩
  · cases he
    exact hp _ _ hfail
  · exact (hf a _ _ _ hrest).elim

theorem Spares.map (hp : p.Spares v s) (g : α → β) : (g <$> p).Spares v s :=
  hp.before fun a => neverFails_pure (g a)

theorem Spares.discard (hp : p.Spares v s) : (Functor.discard p).Spares v s := hp.map _

theorem spares_state_bind {f : σ → Procedure σ α} (h : (f s).Spares v s) :
    (state >>= f).Spares v s := fun e s' hr => h e s' (yields_state_bind_iff.1 hr)

theorem Spares.onFirst {t : τ} (hp : p.Spares v s) :
    (onFirst p : Procedure (σ × τ) α).Spares (fun st => v st.1) (s, t) := by
  intro e st h
  obtain ⟨s', hs, rfl⟩ := yields_onFirst_iff.1 h
  exact hp _ _ hs

theorem Spares.withLocal {t : τ} {p : Procedure (σ × τ) α} (hp : p.Spares (fun st => v st.1) (s, t)) :
    (withLocal t p).Spares v s := by
  intro e s' h
  obtain ⟨t', hlocal⟩ := h.of_withLocal_error
  exact hp _ _ hlocal

end Sparing

end Procedure

/-! ## Looking at a session -/

section Looking

variable {α : Type}

theorem ensureOpen_keeps : Session.ensureOpen.Keeps Session.disk :=
  keeps_of_yields fun s => ⟨_, ensureOpen_yields s⟩

theorem requireRepository_keeps : Session.requireRepository.Keeps Session.disk :=
  keeps_of_yields fun s => ⟨_, requireRepository_yields s⟩

theorem setInput_keeps (form : Form) : (Session.setInput form).Keeps Session.disk :=
  ensureOpen_keeps.bind fun _ => keeps_modify fun _ => rfl

theorem lookUp_keeps (f : Disk → Except Failure α) : (Session.lookUp f).Keeps Session.disk :=
  keeps_state.bind fun _ => keeps_ofExcept _

theorem readClock_keeps : Session.readClock.Keeps Session.disk :=
  keeps_state.bind fun _ => (keeps_ofExcept _).bind fun _ =>
    .bind (keeps_modify fun _ => rfl) fun _ => keeps_pure _

theorem nameItem_keeps : Session.nameItem.Keeps Session.disk :=
  keeps_state.bind fun _ => .bind (keeps_modify fun _ => rfl) fun _ => keeps_pure _

theorem makeItem_keeps (kind : Text) (ident? : Option Text) (user : Option Text) :
    (Session.makeItem kind ident? user).Keeps Session.disk := by
  refine keeps_state.bind fun _ => (keeps_ofExcept _).discard.bind fun _ => ?_
  cases ident? with
  | none => exact nameItem_keeps.bind fun _ => keeps_ofExcept _
  | some ident => exact (keeps_pure ident).bind fun _ => keeps_ofExcept _

theorem decodeItem_keeps (blob : Bytes) : (Session.decodeItem blob).Keeps Session.disk :=
  keeps_state.bind fun _ => keeps_lift _

namespace Store

theorem find_keeps (ident : Text) : (find ident).Keeps Session.disk := by
  refine requireRepository_keeps.bind fun _ => (lookUp_keeps _).bind fun blob? => ?_
  cases blob? with
  | none => exact keeps_fail _
  | some blob => exact decodeItem_keeps blob

theorem get_keeps (ident : Text) : (get ident).Keeps Session.disk :=
  ensureOpen_keeps.bind fun _ => find_keeps ident

theorem findAll_keeps (idents : List Text) : (findAll idents).Keeps Session.disk := by
  induction idents with
  | nil => exact keeps_pure []
  | cons ident rest ih =>
      exact (find_keeps ident).bind fun _ => ih.bind fun _ => keeps_pure _

theorem list_keeps (kind? : Option Text) : (list kind?).Keeps Session.disk :=
  requireRepository_keeps.bind fun _ => (lookUp_keeps _).bind fun _ => findAll_keeps _

theorem newItem_keeps (kind : Text) : (newItem kind).Keeps Session.disk :=
  keeps_state.bind fun _ => makeItem_keeps _ _ _

theorem newForm_keeps (kind : Text) : (newForm kind).Keeps Session.disk :=
  ensureOpen_keeps.bind fun _ => (newItem_keeps kind).bind fun _ =>
    keeps_state.bind fun _ => keeps_lift _

theorem editForm_keeps (ident : Text) : (editForm ident).Keeps Session.disk :=
  (get_keeps ident).bind fun _ => keeps_state.bind fun _ => keeps_lift _

theorem showPage_keeps (ident : Text) : (showPage ident).Keeps Session.disk :=
  (get_keeps ident).bind fun _ => keeps_state.bind fun _ => keeps_lift _

theorem check_keeps (item : Item) (form : Form) : (check item form).Keeps Session.disk := by
  refine (setInput_keeps form).bind fun _ => (keeps_ofExcept _).bind fun report => ?_
  split
  · exact keeps_pure ()
  · exact keeps_fail _

theorem stamp_keeps (user : Option Text) : (stamp user).Keeps fun st => st.1.disk :=
  readClock_keeps.onFirst.bind fun _ => keeps_onSecond _

end Store

end Looking

/-! ## Changes that can be written -/

/-- A list whose changes have names that can be written and read back, those of the records that are
stored being without lone surrogates. -/
def ChangeList.Nameable (l : ChangeList) : Prop := ∀ c ∈ l.changes, c.Unpaired ∧ c.Plain

theorem ChangeList.nameable_empty : ChangeList.Nameable {} := fun _ hc => absurd hc List.not_mem_nil

/-- An item that has bytes has a kind and an identifier without lone surrogates. -/
theorem Item.plain_of_bytes {i : Item} {blob : Bytes} (h : i.bytes = .ok blob) :
    i.kind.name.Plain ∧ i.ident.Plain := by
  have hname : ∀ {t t' : Text}, Schema.name (.str t) = .ok t' → t.Plain := by
    intro t t' ht
    rw [Schema.name] at ht
    split at ht
    · cases ht
    · next hplain =>
      have hsome : t.toChars? ≠ none := by simpa using hplain
      exact Text.plain_iff_toChars?.2 (Option.ne_none_iff_exists'.1 hsome)
  obtain ⟨ms, hms, -⟩ := Except.bind_eq_ok_iff.1 h
  unfold Record.flatten Header.toMembers at hms
  dsimp only at hms
  split at hms
  · split at hms
    · next heq =>
      split at heq
      · next hident hkind _ _ _ _ => exact ⟨hname hkind, hname hident⟩
      · cases heq
    · cases hms
  · cases hms

section Writing

variable {l l' : ChangeList} {i : Item} {op : Operation} {r : Except Failure Unit}

theorem ChangeList.Nameable.append {c : Change} (h : l.Nameable) (hc : c.Unpaired ∧ c.Plain)
    (hr : (ChangeList.append c).Yields l r l') : l'.Nameable := by
  rcases ChangeList.append_yields_iff.1 hr with ⟨-, -, rfl⟩ | ⟨-, rfl, -⟩
  · intro c' hc'
    rcases List.mem_append.1 hc' with hc' | hc'
    · exact h c' hc'
    · obtain rfl := List.mem_singleton.1 hc'
      exact hc
  · exact h

theorem nameable_make {kind ident : Text} {blob : Bytes} {c : Change}
    (h : Change.make op kind ident (some blob) = .ok c) (hk : kind.Plain) (hi : ident.Plain) :
    c.Unpaired ∧ c.Plain := by
  cases op <;> cases h <;> exact ⟨⟨Json.unpaired_of_plain hk, Json.unpaired_of_plain hi⟩, fun _ => ⟨hk, hi⟩⟩

/-- Whatever is written is written under names that can be written. -/
theorem ensures_write (i : Item) (op : Operation) : (ChangeList.write i op).Ensures
    ChangeList.Nameable (fun _ => ChangeList.Nameable) ChangeList.Nameable := by
  intro l r l' hl h
  have hl' : l'.Nameable := by
    cases hb : i.bytes with
    | error e => rwa [(h.unique (ChangeList.write_yields_error hb)).2]
    | ok blob =>
        obtain ⟨hk, hi⟩ := Item.plain_of_bytes hb
        have hencode := i.encode_yields
        rw [hb] at hencode
        unfold ChangeList.write at h
        rcases yields_bind_iff.1 h with ⟨e, -, he⟩ | ⟨blob', l₁, hblob, hrest⟩
        · rwa [(yields_lift_iff.1 he).2]
        · obtain ⟨heq, rfl⟩ := hblob.unique hencode.lift
          cases heq
          rcases yields_bind_iff.1 hrest with ⟨e, -, he⟩ | ⟨c, l₂, hc, happend⟩
          · rwa [(yields_ofExcept_iff.1 he).2]
          · obtain ⟨hmake, rfl⟩ := yields_ofExcept_iff.1 hc
            exact hl.append (nameable_make hmake.symm hk hi) happend
  cases r <;> exact hl'

end Writing

/-! ## Handing changes over -/

/-- A tree whose file names can be written into a manifest and read back.  Every name that a file can
have is such a one. -/
structure Disk.Nameable (d : Disk) : Prop where
  wellFormed : d.WellFormed
  unpaired : ∀ name ∈ d.names [], Json.Unpaired name

section HandingOver

variable {s : Session} {l : ChangeList} {item : Item} {op : Operation} {form : Form}

/-- **Handing over** changes fails in its files, or before anything is done. -/
theorem flush_spares (w : s.disk.WellFormed) (hl : l.Nameable) :
    ChangeList.flush.Spares (fun st => st.1.disk) (s, l) := by
  by_cases hflushed : l.flushed = true
  · intro e st h
    rw [(h.unique (flush_yields_again hflushed)).2]
    exact .inr rfl
  have hflushed : l.flushed = false := by simpa using hflushed
  intro e st h
  by_cases hempty : l.changes = []
  · cases (h.unique (flush_yields_empty hflushed hempty)).1
  · rcases error_or_ok (Repository.apply (batchName s.nextBatch) l.changes) s.disk with
      ⟨e', d, happly⟩ | ⟨name, d, happly⟩
    · cases (h.unique (flush_yields hflushed hempty happly)).1
      exact .inl (Repository.apply_fails_in_files w (unpaired_batchName _) (fun c hc => (hl c hc).1)
        (fun c hc => (hl c hc).2) happly)
    · cases (h.unique (flush_yields hflushed hempty happly)).1

theorem withLocal_flush_spares (w : s.disk.WellFormed) (hl : l.Nameable) :
    (withLocal l ChangeList.flush).Spares Session.disk s := (flush_spares w hl).withLocal

namespace Store

theorem save_spares (w : s.disk.WellFormed) :
    (save op).Spares (fun st => st.1.disk) (s, item) := by
  refine spares_state_bind (.after (stamp_keeps _) fun _ ⟨s₁, item₁⟩ _ hs₁ => ?_)
  refine spares_state_bind (.before (.onFirst ?_) fun _ => neverFails_report _)
  refine .after (keeps_runOn _ _) fun ⟨_, changes⟩ s₂ hwrite hs₂ => ?_
  have hchanges : changes.Nameable := ensures_write _ _ {} _ _ ChangeList.nameable_empty hwrite.of_runOn
  refine .after requireRepository_keeps fun _ s₃ _ hs₃ => ?_
  have w₃ : s₃.disk.WellFormed := by rwa [hs₃, hs₂, hs₁]
  exact (withLocal_flush_spares w₃ hchanges).discard

theorem writeInput_spares (w : s.disk.WellFormed) :
    (writeInput form op).Spares (fun st => st.1.disk) (s, item) := by
  refine spares_state_bind (.after (check_keeps _ _).onFirst fun _ ⟨s₁, item₁⟩ _ hs₁ => ?_)
  refine .after (keeps_onSecond _) fun _ ⟨s₂, item₂⟩ _ hs₂ => ?_
  have w₂ : s₂.disk.WellFormed := by rwa [hs₂, hs₁]
  exact save_spares w₂

theorem create_spares (w : s.disk.WellFormed) (kind : Text) (form : Form) :
    (create kind form).Spares Session.disk s := by
  refine .after ensureOpen_keeps fun _ s₁ _ hs₁ => .after (newItem_keeps kind) fun item s₂ _ hs₂ => ?_
  have w₂ : s₂.disk.WellFormed := by rwa [hs₂, hs₁]
  exact (writeInput_spares w₂).withLocal.map _

theorem update_spares (w : s.disk.WellFormed) (ident : Text) (form : Form) :
    (update ident form).Spares Session.disk s := by
  refine .after (get_keeps ident) fun item s₁ _ hs₁ => ?_
  have w₁ : s₁.disk.WellFormed := by rwa [hs₁]
  exact (writeInput_spares w₁).withLocal.map _

/-- The names in the change that deletes a record are those in the name of its file. -/
theorem unpaired_of_mem_entries {d : Disk} (hd : d.Nameable) {kind ident : Text}
    (h : (kind, ident) ∈ Repository.entries none d) : Json.Unpaired kind ∧ Json.Unpaired ident := by
  obtain ⟨f, hf, heq⟩ := List.mem_map.1 h
  cases heq
  obtain ⟨-, hname, hnode⟩ := Repository.mem_recordFiles_iff.1 (List.mem_of_mem_filter hf)
  have hfile := hd.unpaired f.name (Disk.mem_names_iff.2 hnode)
  rw [hname, RecordName.file, RecordName.stem] at hfile
  have hstem := List.IsChain.left_of_append hfile
  exact ⟨(List.IsChain.left_of_append hstem).left_of_append, hstem.right_of_append⟩

theorem delete_spares (hd : s.disk.Nameable) (ident : Text) :
    (delete ident).Spares Session.disk s := by
  refine .after requireRepository_keeps fun _ s₁ _ hs₁ => ?_
  refine .after (lookUp_keeps _) fun entries s₂ hlook hs₂ => ?_
  obtain ⟨hentries, rfl⟩ := hlook.unique (lookUp_yields (s := s₁) _)
  cases hentries
  rw [hs₁]
  cases hfind : (Repository.entries none s.disk).find? fun e => e.2 == ident with
  | none => exact (keeps_pure false).spares
  | some e =>
      obtain ⟨kind, ident'⟩ := e
      obtain rfl : ident' = ident := by simpa using List.find?_some hfind
      obtain ⟨hk, hi⟩ := unpaired_of_mem_entries hd (List.mem_of_find?_eq_some hfind)
      refine .after (keeps_runOn _ _) fun ⟨_, changes⟩ s₃ hdelete hs₃ => ?_
      have hchanges : changes.Nameable := ChangeList.nameable_empty.append (c := .delete kind ident')
        ⟨⟨hk, hi⟩, fun hdata => absurd rfl hdata⟩ hdelete.of_runOn
      have w₃ : s₃.disk.WellFormed := by rw [hs₃, hs₁]; exact hd.wellFormed
      exact (withLocal_flush_spares w₃ hchanges).discard.before fun _ =>
        (neverFails_report _).bind fun _ => neverFails_pure true

/-- A deletion that finds nothing does nothing. -/
theorem disk_of_delete_false {s' : Session} {ident : Text}
    (h : (delete ident).Yields s (.ok false) s') : s'.disk = s.disk := by
  obtain ⟨_, s₁, hready, h⟩ := yields_bind_ok_iff.1 h
  obtain ⟨entries, s₂, hlook, h⟩ := yields_bind_ok_iff.1 h
  have hs₂ : s₂.disk = s.disk := (lookUp_keeps _ _ _ _ hlook).trans (requireRepository_keeps _ _ _ hready)
  dsimp only at h
  split at h
  · rw [(yields_pure_iff.1 h).2, hs₂]
  · obtain ⟨_, s₃, -, h⟩ := yields_bind_ok_iff.1 h
    obtain ⟨_, s₄, -, h⟩ := yields_bind_ok_iff.1 h
    obtain ⟨_, s₅, -, h⟩ := yields_bind_ok_iff.1 h
    cases (yields_pure_iff.1 h).1

end Store

namespace Dispatch

theorem actOnItem_spares (w : s.disk.WellFormed) (action : Action) (ident : Text) :
    (actOnItem action ident).Spares Session.disk s := by
  refine .after (Store.find_keeps ident) fun item s₁ _ hs₁ => spares_state_bind ?_
  refine .map (.withLocal (.after (keeps_onSecond _) fun response ⟨s₂, item₂⟩ _ hs₂ => ?_)) _
  have w₂ : s₂.disk.WellFormed := by rwa [hs₂, hs₁]
  exact (Store.save_spares w₂).before fun _ => neverFails_pure response

theorem deleteItem_spares (hd : s.disk.Nameable) (ident : Text) :
    (deleteItem ident).Spares Session.disk s := by
  intro e s' h
  rcases yields_bind_iff.1 h with ⟨e', he, hdelete⟩ | ⟨b, s₁, hdelete, hrest⟩
  · cases he
    exact Store.delete_spares hd ident _ _ hdelete
  · cases b with
    | true => cases (yields_pure_iff.1 hrest).1
    | false =>
        obtain ⟨-, rfl⟩ := yields_fail_iff.1 hrest
        exact .inr (Store.disk_of_delete_false hdelete)

theorem dispatch_spares (hd : s.disk.Nameable) (name ident : Text) :
    (dispatch name ident).Spares Session.disk s := by
  refine .after (keeps_ofExcept _) fun action s₁ _ hs₁ => .after ensureOpen_keeps fun _ s₂ _ hs₂ => ?_
  refine .after (keeps_report _) fun _ s₃ _ hs₃ => ?_
  have hd₃ : s₃.disk.Nameable := by rwa [hs₃, hs₂, hs₁]
  split
  · exact deleteItem_spares hd₃ ident
  · exact actOnItem_spares hd₃.wellFormed action ident

end Dispatch

/-! ## Merging -/

namespace Merge

theorem checkSide_keeps {σ υ : Type} {v : σ → υ} (c : Conflict) (side : Item) :
    (checkSide c side : Procedure σ Unit).Keeps v := by
  unfold checkSide
  split
  · exact keeps_pure ()
  · exact keeps_fail _

/-- What a merge checks of its sides does not touch the changes. -/
theorem ensures_checks {P : ChangeList → Prop} {c : Conflict} {ancestor : Option Item} {b : Bool}
    {e : Failure} {k : Unit → Procedure ChangeList Item} (hk : (k ()).Ensures P (fun _ => P) P) :
    (match ancestor with
      | some side => checkSide c side >>= fun _ => if b = true then k () else fail e >>= k
      | none => if b = true then k () else fail e >>= k).Ensures P (fun _ => P) P := by
  have hguard : (if b = true then k () else fail e >>= k).Ensures P (fun _ => P) P := by
    split
    · exact hk
    · exact (keeps_fail e).ensures.bind fun _ => hk
  split
  · exact (checkSide_keeps c _).ensures.bind fun _ => hguard
  · exact hguard

/-- Whatever a merge adds to the changes can be written. -/
theorem ensures_resolve (registry : Registry) (user : Option Text) (policy : MergePolicy)
    (c : Conflict) : (resolve registry user policy c).Ensures
      ChangeList.Nameable (fun _ => ChangeList.Nameable) ChangeList.Nameable := by
  unfold resolve
  refine (keeps_lift _).ensures.bind fun ours => (keeps_lift _).ensures.bind fun theirs =>
    (keeps_lift _).ensures.bind fun ancestor => (checkSide_keeps c ours).ensures.bind fun _ =>
    (checkSide_keeps c theirs).ensures.bind fun _ => ensures_checks ?_
  exact (keeps_lift _).ensures.bind fun merged => (keeps_ofExcept _).ensures.bind fun header =>
    (ensures_write _ _).bind fun _ => (keeps_report _).ensures.bind fun _ => (keeps_pure _).ensures

/-- A batch whose changes can be written. -/
def Batch.Nameable (b : Batch) : Prop := b.changes.Nameable

theorem ensures_resolveOne (registry : Registry) (user : Option Text) (c : Conflict) :
    (resolveOne registry user c).Ensures Batch.Nameable (fun _ => Batch.Nameable) Batch.Nameable := by
  unfold resolveOne
  refine (keeps_ofExcept _).ensures.bind fun e => (keeps_report _).ensures.bind fun _ => ?_
  have hattempt : (Procedure.attempt (Batch.onChanges (resolve registry user e.merge c))).Ensures
      Batch.Nameable (fun _ => Batch.Nameable) Batch.Nameable := by
    refine ensures_of_yields fun b hb => ?_
    have hrun := yields_run (resolve registry user e.merge c) b.changes
    refine ⟨_, _, (hrun.onPart (s := b)).attempt, ?_⟩
    have hpost := ensures_resolve registry user e.merge c _ _ _ hb hrun
    cases hr : (run (resolve registry user e.merge c) b.changes).result <;> rw [hr] at hpost <;> exact hpost
  refine hattempt.bind fun result => ?_
  have hkeep : ∀ f : Batch → Batch, (∀ b, (f b).changes = b.changes) → (Procedure.modify f).Ensures
      Batch.Nameable (fun _ => Batch.Nameable) Batch.Nameable :=
    fun f hf => ensures_modify fun b hb => by rwa [Batch.Nameable, hf]
  rcases result with f | i
  · cases f with
    | unresolvable e => exact hkeep _ fun _ => rfl
    | _ => exact (keeps_of_yields fun b => ⟨_, rfl, rfl⟩).ensures
  · exact hkeep _ fun _ => rfl

theorem ensures_resolveAll (registry : Registry) (user : Option Text) (conflicts : List Conflict) :
    (resolveAll registry user conflicts).Ensures Batch.Nameable (fun _ => Batch.Nameable)
      Batch.Nameable := by
  induction conflicts with
  | nil => exact (keeps_pure ()).ensures
  | cons c cs ih => exact (ensures_resolveOne registry user c).bind fun _ => ih

theorem mergeAll_spares (w : s.disk.WellFormed) (conflicts : List Conflict) :
    (mergeAll conflicts).Spares (fun st => st.1.disk) (s, {}) := by
  refine .after ensureOpen_keeps.onFirst fun _ ⟨s₁, b₁⟩ hopen hs₁ => spares_state_bind ?_
  refine .after (keeps_onSecond _) fun _ ⟨s₂, b₂⟩ hresolve hs₂ => ?_
  have hb₂ : b₂.Nameable := by
    obtain ⟨_, -, heq⟩ := yields_onFirst_iff.1 hopen
    obtain ⟨b', hall, heq'⟩ := yields_onSecond_iff.1 hresolve
    cases heq
    cases heq'
    exact ensures_resolveAll _ _ conflicts {} _ _ ChangeList.nameable_empty hall
  refine .after requireRepository_keeps.onFirst fun _ ⟨s₃, b₃⟩ hready hs₃ => spares_state_bind ?_
  obtain ⟨_, -, heq⟩ := yields_onFirst_iff.1 hready
  cases heq
  have w₃ : s₃.disk.WellFormed := by rwa [hs₃, hs₂, hs₁]
  refine (withLocal_flush_spares w₃ hb₂).onFirst.before fun ⟨name, changes⟩ => ?_
  exact neverFails_of_yields fun ⟨s, b⟩ => ⟨name, _, (yields_modify _ b).onSecond.bind
    (yields_state_bind_iff.2 ((yields_report _ _).bind (yields_pure name _)))⟩

end Merge

end HandingOver

/-! ## Requests -/

/-- What can be asked of a session that works on a repository. -/
inductive Request where
  | create (kind : Text) (form : Form)
  | update (ident : Text) (form : Form)
  | delete (ident : Text)
  | dispatch (name ident : Text)
  | get (ident : Text)
  | list (kind? : Option Text)
  | newForm (kind : Text)
  | editForm (ident : Text)
  | showPage (ident : Text)
  | merge (conflicts : List Conflict)

/-- A request in a session, whatever its answer is. -/
def Request.inSession : Request → Procedure Session Unit
  | create kind form => discard (Store.create kind form)
  | update ident form => discard (Store.update ident form)
  | delete ident => discard (Store.delete ident)
  | dispatch name ident => discard (Dispatch.dispatch name ident)
  | get ident => discard (Store.get ident)
  | list kind? => discard (Store.list kind?)
  | newForm kind => discard (Store.newForm kind)
  | editForm ident => discard (Store.editForm ident)
  | showPage ident => discard (Store.showPage ident)
  | merge conflicts => discard (Procedure.withLocal {} (Merge.mergeAll conflicts))

section Requests

variable {s s' : Session} {e : Failure}

/-- Every request is spared: it hands changes over once at most, and does nothing behind that which
could fail. -/
theorem request_spares (hd : s.disk.Nameable) (q : Request) : q.inSession.Spares Session.disk s := by
  cases q with
  | create kind form => exact (Store.create_spares hd.wellFormed kind form).discard
  | update ident form => exact (Store.update_spares hd.wellFormed ident form).discard
  | delete ident => exact (Store.delete_spares hd ident).discard
  | dispatch name ident => exact (Dispatch.dispatch_spares hd name ident).discard
  | get ident => exact (Store.get_keeps ident).discard.spares
  | list kind? => exact (Store.list_keeps kind?).discard.spares
  | newForm kind => exact (Store.newForm_keeps kind).discard.spares
  | editForm ident => exact (Store.editForm_keeps ident).discard.spares
  | showPage ident => exact (Store.showPage_keeps ident).discard.spares
  | merge conflicts => exact (Merge.mergeAll_spares hd.wellFormed conflicts).withLocal.discard

/-- **A failed request changes nothing.** Whatever kinds are registered, whatever the templates and the
records are, and whether the session is over or has no repository: a request that fails, and not by a
fault of the storage or a null in the name of a record, leaves every file as it was, and no batch
waits. -/
theorem failed_request_changes_nothing (hd : s.disk.Nameable)
    (hnone : ∀ batch, s.disk.node? (Repository.batchPath batch) ≠ some .directory) (q : Request)
    (h : q.inSession.Yields s (.error e) s') (he : ¬ e.OfStorage) (hnull : e ≠ .change .nullInName) :
    s'.disk = s.disk
      ∧ ∀ batch, s'.disk.node? (Repository.batchPath batch) ≠ some .directory := by
  have hfiles : ¬ e.OfFiles := not_or.2 ⟨he, hnull⟩
  have hdisk : s'.disk = s.disk := (request_spares hd q e s' h).resolve_left hfiles
  exact ⟨hdisk, hdisk ▸ hnone⟩

/-- A tree with one file at its top can be written about, if its name can. -/
theorem Disk.nameable_put {name : Text} {bytes : Bytes} (hname : Json.Unpaired name) :
    (Disk.put [name] (.file bytes) {}).Nameable where
  wellFormed := Disk.wellFormed_empty.put (by simp) rfl (.inr (by simp [Disk.node?]))
  unpaired := by
    intro name' hname'
    obtain ⟨n, hn⟩ := Disk.mem_names_iff.1 hname'
    rw [List.nil_append, Disk.node?_put (by simp)] at hn
    split_ifs at hn with heq
    · rw [(List.cons.inj heq).1]
      exact hname
    · cases hn

theorem Disk.noBatch_put {name : Text} {bytes : Bytes} (batch : Text) :
    (Disk.put [name] (.file bytes) {}).node? (Repository.batchPath batch) ≠ some .directory := by
  rw [Disk.node?_put (by simp), if_neg (by simp [Repository.batchPath])]
  simp [Disk.node?, Repository.batchPath]

/-- A session whose clock cannot be read. -/
def Session.stopped : Session :=
  let s := Session.starting Repository.oneRecord
  { s with clock := { s.clock with tick := .error .endless } }

/-- An item whose input was taken over already cannot be stamped, and nothing is written. -/
theorem failed_request_changes_nothing_stopped :
    let o := run (Request.create "simple" [("name", "x"), ("text", "y")]).inSession Session.stopped
    o.result = .error (.clock .endless) ∧ o.state.disk = Repository.oneRecord := by
  have h := failed_request_changes_nothing (e := .clock .endless) (s := Session.stopped)
    (Disk.nameable_put (by decide)) Disk.noBatch_put
    (.create "simple" [("name", "x"), ("text", "y")]) ⟨rfl, rfl⟩ (by rintro ⟨fault, ⟨⟩⟩) nofun
  exact ⟨rfl, h.1⟩

/-- A repository in which the file of `a` holds a page with a null in its identifier. -/
def nullDisk : Disk :=
  Disk.put [RecordName.file Kind.page.name "a"] (.file (pageRecord "a\\u0000b" "t")) {}

/-- The page is found and takes its input, and its update fails; but the batch was committed by then: it
stays, and the repository cannot be opened any more. -/
theorem failed_request_changes_nothing_null :
    nullDisk.Nameable ∧ (∀ batch, nullDisk.node? (Repository.batchPath batch) ≠ some .directory)
      ∧ ∃ s', (Request.update "a" [("name", "m")]).inSession.Yields (.starting nullDisk)
          (.error (.change .nullInName)) s'
        ∧ s'.disk ≠ nullDisk
        ∧ s'.disk.node? (Repository.batchPath (batchName 0)) = some .directory
        ∧ (run Repository.recover s'.disk).result = .error (.change .nullInName) := by
  have w : Repository.AtRest _ nullDisk := Repository.atRest_empty.put_file (by decide) (by simp) _
  have r := (regular_of_decodeItem decodeItem_nullPage).1
  have hfind : (Store.find "a").Yields (.starting nullDisk) (.ok (unwrittenPage "a\x00b" "t"))
      (.starting nullDisk) := by
    refine Store.find_of_read ⟨rfl, rfl⟩ ?_ decodeItem_nullPage
    exact (w.settled.represents.read_eq "a").trans (by rw [Function.update_self]; rfl)
  have hnow := Session.recordable_starting nullDisk
  obtain ⟨clock, hclock⟩ : ∃ clock, (Session.starting nullDisk).clock.advance = .ok clock := ⟨_, rfl⟩
  have hform : ∀ field ∈ ([("name", "m")] : Form), field.2.Plain := by simp [Text.plain_ofString]
  have huser : ∀ u ∈ (none : Option Text), u.Plain := nofun
  obtain ⟨blob, hb⟩ := exists_bytes_updatedPage r (Text.plain_ofString "t") hform huser hnow
  have hop : Operation.update ≠ .delete := nofun
  obtain ⟨d, hhand, hbatch, hrecover⟩ := Store.handOver_null
    (s := { Session.starting nullDisk with input := [("name", "m")], clock }) w ⟨rfl, rfl⟩
    (regular_updatedPage r hnow) (by decide +kernel) hop hb
  have hupdate := Store.update_yields ⟨rfl, rfl⟩ hfind r (by decide) hclock rfl hhand
  refine ⟨Disk.nameable_put (by decide), Disk.noBatch_put, _, hupdate.discard, ?_, hbatch, hrecover.1⟩
  rintro rfl
  exact Disk.noBatch_put _ hbatch

end Requests

end RecordStore
