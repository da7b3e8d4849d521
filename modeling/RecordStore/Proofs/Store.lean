import RecordStore.Dispatch
import RecordStore.Proofs.ChangeList
import RecordStore.Proofs.Payload
import RecordStore.Proofs.Session
import RecordStore.Proofs.Stamp

/-!
# RecordStore.Proofs.Store

The steps of the operations on stored items: what each of them yields, given the map of records that
the repository represents.  A write comes down to `handOver`, which puts one record into the map, and
a deletion to `handOverDeletion`, which takes one away.
-/

namespace RecordStore

open Procedure
open Repository (Contents Represents Settled AtRest ProperChanges StorableChanges appliedAll)

variable {s s' : Session} {m : Contents} {i : Item} {kind ident : Text} {op : Operation}
  {blob : Bytes}

/-! ## Looking up -/

/-- Whether a session can be worked with: it is not over, and it has a repository. -/
structure Session.Ready (s : Session) : Prop where
  closed : s.closed = false
  attached : s.attached = true

theorem Session.Ready.ensureOpen (h : s.Ready) : Session.ensureOpen.Yields s (.ok ()) s := by
  have hopen := ensureOpen_yields s
  rwa [h.closed] at hopen

theorem Session.Ready.requireRepository (h : s.Ready) :
    Session.requireRepository.Yields s (.ok ()) s := by
  have hready := requireRepository_yields s
  rwa [h.closed, h.attached] at hready

theorem Session.requireRepository_of_not_ready (h : ¬ s.Ready) :
    ∃ e, Session.requireRepository.Yields s (.error e) s := by
  have hready := requireRepository_yields s
  cases hc : s.closed with
  | true =>
      rw [hc] at hready
      exact ⟨_, hready⟩
  | false =>
      cases ha : s.attached with
      | false =>
          rw [hc, ha] at hready
          exact ⟨_, hready⟩
      | true => exact absurd ⟨hc, ha⟩ h

theorem lookUp_yields {α : Type} (f : Disk → Except Failure α) :
    (Session.lookUp f).Yields s (f s.disk) s :=
  yields_state_bind_iff.2 (yields_ofExcept _ s)

namespace Store

/-- The item of an identifier is what its record is read as. -/
theorem find_yields (rep : Represents s.disk m) (h : s.Ready) (ident : Text) :
    (find ident).Yields s (match m ident with
      | some v => (run (Registry.decodeItem v.2 s.registry) ()).result
      | none => .error (.itemNotFound ident)) s := by
  have hlook := lookUp_yields (s := s) (Repository.read ident)
  rw [rep.read_eq] at hlook
  refine h.requireRepository.bind (hlook.bind ?_)
  cases m ident with
  | none => exact yields_fail _ s
  | some v => exact yields_state_bind_iff.2 (yields_run (Registry.decodeItem v.2 s.registry) ()).lift

/-- What is read from the record file of an identifier is found. -/
theorem find_of_read (hready : s.Ready) (hread : Repository.read ident s.disk = .ok (some blob))
    (hdecode : (s.registry.decodeItem blob).Yields () (.ok i) ()) : (find ident).Yields s (.ok i) s := by
  have hlook := lookUp_yields (s := s) (Repository.read ident)
  rw [hread] at hlook
  exact hready.requireRepository.bind (hlook.bind (yields_state_bind_iff.2 hdecode.lift))

end Store

/-! ## New items -/

/-- A new item of a kind. -/
def Item.fresh (p : KindPolicy) (ident : Text) (user : Option Text) : Item :=
  ⟨{ Header.fresh ident p.kind with createdBy := .value user }, p.fresh⟩

/-- The identifier of a new item is made of a few characters that come from `-` on, and of no slash. -/
theorem exists_itemName_eq (n : Nat) : ∃ cs, itemName n = Text.ofChars cs ∧ cs ≠ []
    ∧ cs.length ≤ 36 ∧ ∀ c ∈ cs, 45 ≤ c.toNat ∧ c.toNat ≠ 47 := by
  refine ⟨_, rfl, by simp [List.intercalate, List.intersperse], ?_, fun c hc => ?_⟩
  · simp only [List.intercalate, List.intersperse, List.flatten_cons, List.flatten_nil, List.length_append,
      List.length_take, List.length_singleton, List.append_nil]
    omega
  · have hpart : ∀ {i k : Nat}, c ∈ ((hexDigits 32 n).drop i).take k → 48 ≤ c.toNat := fun h =>
      code_of_mem_hexDigits (List.mem_of_mem_drop (List.mem_of_mem_take h))
    have hcode : c = '-' ∨ 48 ≤ c.toNat := by
      simp only [List.intercalate, List.intersperse, List.flatten_cons, List.flatten_nil,
        List.mem_append, List.mem_singleton, List.append_nil] at hc
      rcases hc with h | h | h | h | h | h | h | h | h
      all_goals first | exact .inl h | exact .inr (hpart h)
    rcases hcode with rfl | hcode
    · decide
    · omega

/-- The identifier of a new item is a plain text that is not empty. -/
theorem plain_itemName (n : Nat) : (itemName n).Plain ∧ itemName n ≠ [] := by
  obtain ⟨cs, hcs, hne, -⟩ := exists_itemName_eq n
  rw [hcs]
  exact ⟨⟨cs, rfl⟩, by simpa [Text.ofChars] using hne⟩

/-- The record of a new item has a name that a file can have, whatever its kind. -/
theorem isFileName_itemName {k : Kind} (hk : k = .page ∨ k = .task) (n : Nat) :
    Path.IsFileName (RecordName.file k.name (itemName n)) := by
  obtain ⟨cs, hcs, -, hlength, hcodes⟩ := exists_itemName_eq n
  obtain ⟨ks, hks, hshort, hplain⟩ : ∃ ks : List Char, k.name = Text.ofChars ks ∧ ks.length ≤ 6
      ∧ ∀ c ∈ ks, 45 ≤ c.toNat ∧ c.toNat ≠ 47 := by
    rcases hk with rfl | rfl
    · exact ⟨"simple".toList, rfl, by decide, by simp⟩
    · exact ⟨"task".toList, rfl, by decide, by simp⟩
  have hname : RecordName.file k.name (itemName n)
      = Text.ofChars (ks ++ "-@".toList ++ cs ++ ".json".toList) := by
    rw [hks, hcs]
    simp [RecordName.file, RecordName.stem, RecordName.separator, RecordName.suffix, Text.ofString,
      Text.ofChars]
  have hall : ∀ c ∈ ks ++ "-@".toList ++ cs ++ ".json".toList, 45 ≤ c.toNat ∧ c.toNat ≠ 47 := by
    simp only [List.forall_mem_append]
    exact ⟨⟨⟨hplain, by simp⟩, hcodes⟩, by simp⟩
  have hslash : .char '/' ∉ RecordName.file k.name (itemName n) := by
    rw [hname]
    intro hmem
    obtain ⟨c, hc, heq⟩ := List.mem_map.1 hmem
    cases heq
    exact absurd rfl (hall '/' hc).2
  have hpath := RecordName.ofText_of_isSuffix hslash (RecordName.suffix_isSuffix_file _ _)
  rw [hname] at hpath ⊢
  refine Path.isFileName_of_plain hpath (fun hnull => ?_) (Nat.le_trans (Utf8.length_encodeChars_le _) ?_)
  · exact absurd (hall _ hnull).1 (by decide)
  · have hlimit : Path.nameLimit = 255 := rfl
    simp only [List.length_append, String.length_toList]
    have hseparator : "-@".length = 2 := rfl
    have hsuffix : ".json".length = 5 := rfl
    omega

theorem Item.regular_fresh {e : Registration} (he : Registry.bundled.get kind = .ok e) (n : Nat)
    (user : Option Text) : (Item.fresh e.policy (itemName n) user).Regular := by
  have hident := plain_itemName n
  have hrevision : ∃ k : Int, 0 ≤ k ∧ Attribute.value (0 : Int) = .value k := ⟨0, by omega, rfl⟩
  have htime : ∀ t ∈ (none : Option Timestamp), t.Recordable := by simp
  have hkind : ∀ {k : Kind}, k = .page ∨ k = .task → k.name.Plain ∧ k.name ≠ [] := by
    intro k hk
    rcases hk with rfl | rfl <;> exact ⟨⟨_, rfl⟩, by decide⟩
  rcases Registry.get_bundled_ok he with ⟨-, rfl⟩ | ⟨-, rfl⟩
  · exact ⟨⟨hident, hkind (.inl rfl), hrevision, ⟨_, rfl⟩, htime, htime, ⟨_, rfl⟩, ⟨_, rfl⟩⟩, .page _,
      rfl⟩
  · exact ⟨⟨hident, hkind (.inr rfl), hrevision, ⟨_, rfl⟩, htime, htime, ⟨_, rfl⟩, ⟨_, rfl⟩⟩, .task _,
      rfl⟩

/-- A new item has a record whose name a file can have. -/
theorem Item.named_fresh {e : Registration} (he : Registry.bundled.get kind = .ok e) (n : Nat)
    (user : Option Text) : (Item.fresh e.policy (itemName n) user).Named := by
  rcases Registry.get_bundled_ok he with ⟨-, rfl⟩ | ⟨-, rfl⟩
  · exact isFileName_itemName (.inl rfl) n
  · exact isFileName_itemName (.inr rfl) n

namespace Store

/-- A new item takes the next identifier, if its kind is registered. -/
theorem newItem_yields (hreg : s.registry = .bundled) (kind : Text) :
    match Registry.bundled.get kind with
    | .ok e => (newItem kind).Yields s (.ok (Item.fresh e.policy (itemName s.nextItem) s.user))
        { s with nextItem := s.nextItem + 1 }
    | .error f => (newItem kind).Yields s (.error f) s := by
  unfold newItem Session.makeItem
  have hget : s.registry.get kind = Registry.bundled.get kind := by rw [hreg]
  cases he : Registry.bundled.get kind with
  | error f =>
      refine yields_state_bind_iff.2 (yields_state_bind_iff.2 ?_)
      dsimp only
      rw [hget, he]
      exact (yields_ofExcept _ s).discard.bind_error
  | ok e =>
      have hname : Session.nameItem.Yields s (.ok (itemName s.nextItem))
          { s with nextItem := s.nextItem + 1 } :=
        yields_state_bind_iff.2 ((yields_modify _ s).bind (yields_pure _ _))
      have hmake : s.registry.makeItem kind (itemName s.nextItem) s.user
          = .ok (Item.fresh e.policy (itemName s.nextItem) s.user) := by
        unfold Registry.makeItem
        rw [hget, he]
        rcases Registry.get_bundled_ok he with ⟨-, rfl⟩ | ⟨-, rfl⟩ <;> rfl
      refine yields_state_bind_iff.2 (yields_state_bind_iff.2 ?_)
      dsimp only
      rw [hget, he]
      refine (yields_ofExcept _ s).discard.bind (hname.bind ?_)
      rw [hmake]
      exact yields_pure _ _

/-! ## Input -/

/-- Input is remembered, and refused with all that is wrong with it. -/
theorem check_yields (r : i.Regular) (hopen : s.closed = false) (form : Form) :
    (check i form).Yields s (if (i.payload.check form).success then .ok ()
        else .error (.validation (.rejected (i.payload.check form).errors i.ident)))
      { s with input := form } := by
  have hensure := ensureOpen_yields s
  rw [hopen] at hensure
  have hset : (Session.setInput form).Yields s (.ok ()) { s with input := form } :=
    hensure.bind (yields_modify _ s)
  have hcheck : Item.check form i = .ok (i.payload.check form) := by
    rw [Item.check, r.header.toMembers_eq]
  unfold check
  refine hset.bind ?_
  rw [hcheck]
  refine yields_ofExcept_ok_bind_iff.2 ?_
  split
  · exact yields_pure _ _
  · exact yields_fail _ _

/-- A session that is over takes no input. -/
theorem check_yields_closed (hclosed : s.closed = true) (form : Form) :
    (check i form).Yields s (.error (.programming .sessionOver)) s := by
  have hensure := ensureOpen_yields s
  rw [hclosed] at hensure
  have hset : (Session.setInput form).Yields s (.error (.programming .sessionOver)) s :=
    hensure.bind_error
  exact hset.bind_error

/-! ## Writing -/

/-- Hand one item over to the repository, as a batch of its own. -/
def handOver (i : Item) (op : Operation) : Procedure Session Unit := do
  let (_, changes) ← Procedure.runOn {} (ChangeList.write i op)
  Session.requireRepository
  discard (Procedure.withLocal changes ChangeList.flush)

/-- An item without bytes is not handed over. -/
theorem handOver_yields_error {e : Failure} (hb : i.bytes = .error e) :
    (handOver i op).Yields s (.error e) s := by
  have hwrite : (ChangeList.write i op).Yields {} (.error e) {} := ChangeList.write_yields_error hb
  exact hwrite.runOn.bind_error

/-- What is stored under a kind and an identifier. -/
theorem exists_change (hop : op ≠ .delete) (kind ident : Text) (blob : Bytes) :
    ∃ c, Change.make op kind ident (some blob) = .ok c ∧ c.kind = kind ∧ c.ident = ident
      ∧ c.stored = some (kind, blob) := by
  cases op with
  | create => exact ⟨_, rfl, rfl, rfl, rfl⟩
  | update => exact ⟨_, rfl, rfl, rfl, rfl⟩
  | delete => exact absurd rfl hop

/-- A list of one change. -/
def single (c : Change) : ChangeList := ChangeList.added c {}

theorem proper_single {c : Change} (hv : RecordName.Valid c.kind c.ident) (hu : c.Unpaired) :
    ProperChanges (single c).changes where
  nodup := by simp [single, ChangeList.added]
  valid := by simpa [single, ChangeList.added] using hv
  unpaired := by simpa [single, ChangeList.added] using hu

/-- An item that has bytes is handed over as the change that stores them. -/
theorem handOver_yields {c : Change} (hb : i.bytes = .ok blob)
    (hc : Change.make op i.kind.name i.ident (some blob) = .ok c) {r : Except Failure (Option Text)}
    {l : ChangeList} (h : s.Ready) (hflush : ChangeList.flush.Yields (s, single c) r (s', l)) :
    (handOver i op).Yields s (r.map fun _ => ()) s' := by
  have happend : (ChangeList.append c).Yields {} (.ok ()) (single c) :=
    ChangeList.append_yields ⟨rfl, rfl⟩
  have hwrite := ChangeList.write_yields hb hc happend
  refine hwrite.runOn.bind (h.requireRepository.bind ?_)
  have hdiscard := hflush.withLocal.discard
  cases r with
  | ok batch => exact hdiscard
  | error e => exact hdiscard

/-- A session without a repository hands nothing over. -/
theorem handOver_of_not_ready (h : ¬ s.Ready) (hb : i.bytes = .ok blob) (hop : op ≠ .delete) :
    ∃ e, (handOver i op).Yields s (.error e) s := by
  obtain ⟨c, hc, -⟩ := exists_change hop i.kind.name i.ident blob
  obtain ⟨e, hready⟩ := Session.requireRepository_of_not_ready h
  have happend : (ChangeList.append c).Yields {} (.ok ()) (single c) :=
    ChangeList.append_yields ⟨rfl, rfl⟩
  have hwrite := ChangeList.write_yields hb hc happend
  exact ⟨e, hwrite.runOn.bind hready.bind_error⟩

/-- The names in the change of a regular item are those of a record. -/
theorem proper_of_regular (r : i.Regular) {c : Change} (hkind : c.kind = i.kind.name)
    (hident : c.ident = i.ident) : ProperChanges (single c).changes := by
  have hvalid := r.valid
  have hunpaired := r.unpaired
  rw [← hkind, ← hident] at hvalid hunpaired
  exact proper_single hvalid ⟨hunpaired.1, hunpaired.2⟩

/-- The change of a regular item whose record has a name that a file can have. -/
theorem storable_of_regular (r : i.Regular) (hnamed : i.Named) {c : Change} (hkind : c.kind = i.kind.name)
    (hident : c.ident = i.ident) : StorableChanges (single c).changes where
  toProperChanges := proper_of_regular r hkind hident
  fits := by
    have hfits : c.Fits := fun _ => by rwa [hkind, hident]
    simpa [single, ChangeList.added] using hfits

/-- A deletion stores no record. -/
theorem storable_of_delete (hp : ProperChanges (single (.delete kind ident)).changes) :
    StorableChanges (single (.delete kind ident)).changes where
  toProperChanges := hp
  fits := by simp [single, ChangeList.added, Change.Fits, Change.data?]

theorem appliedAll_single (m : Contents) (c : Change) :
    appliedAll m (single c).changes = Function.update m c.ident c.stored := rfl

/-- A repository takes a regular item that has bytes, or refuses it before anything is done. -/
theorem handOver_settled {waiting : Text → Node → Prop} (w : Settled waiting m s.disk)
    (r : i.Regular) (hnamed : i.Named) (hop : op ≠ .delete) : (∃ f, (handOver i op).Yields s (.error f) s)
      ∨ (∃ f, (handOver i op).Yields s (.error f) s.named)
      ∨ ∃ blob d n, i.bytes = .ok blob
        ∧ (handOver i op).Yields s (.ok ()) { s with disk := d, nextBatch := n }
        ∧ Settled waiting (Function.update m i.ident (some (i.kind.name, blob))) d := by
  cases hb : i.bytes with
  | error e => exact .inl ⟨e, handOver_yields_error hb⟩
  | ok blob =>
      obtain ⟨c, hc, hkind, hident, hstored⟩ := exists_change hop i.kind.name i.ident blob
      by_cases hready : s.Ready
      · rcases flush_settled w (l := single c) rfl (storable_of_regular r hnamed hkind hident) with
          ⟨batch, d, n, hflush, w', -⟩ | ⟨f, hflush⟩
        · rw [appliedAll_single, hident, hstored] at w'
          exact .inr (.inr ⟨blob, d, n, rfl, handOver_yields hb hc hready hflush, w'⟩)
        · exact .inr (.inl ⟨f, handOver_yields hb hc hready hflush⟩)
      · exact .inl (handOver_of_not_ready hready hb hop)

/-- A repository at rest takes every regular item that has bytes. -/
theorem handOver_atRest (w : AtRest m s.disk) (h : s.Ready) (r : i.Regular) (hnamed : i.Named)
    (hop : op ≠ .delete) (hb : i.bytes = .ok blob) :
    ∃ d, (handOver i op).Yields s (.ok ()) { s.named with disk := d }
      ∧ AtRest (Function.update m i.ident (some (i.kind.name, blob))) d := by
  obtain ⟨c, hc, hkind, hident, hstored⟩ := exists_change hop i.kind.name i.ident blob
  obtain ⟨d, happly, w'⟩ :=
    w.apply_yields (unpaired_batchName s.nextBatch) (storable_of_regular r hnamed hkind hident)
  rw [appliedAll_single, hident, hstored] at w'
  have hflush := flush_yields (s := s) (l := single c) rfl (by simp [single, ChangeList.added]) happly
  exact ⟨d, handOver_yields hb hc h hflush, w'⟩

/-- A repository at rest fails at an item whose record has a null in its name, and keeps the batch, at which
every later opening fails. -/
theorem handOver_null (w : AtRest m s.disk) (h : s.Ready) (r : i.Regular)
    (hnull : Path.onDisk (RecordName.file i.kind.name i.ident) = .error .null) (hop : op ≠ .delete)
    (hb : i.bytes = .ok blob) :
    ∃ d, (handOver i op).Yields s (.error (.change .nullInName)) { s.named with disk := d }
      ∧ d.node? (Repository.batchPath (batchName s.nextBatch)) = some .directory
      ∧ Repository.recover.Yields d (.error (.change .nullInName)) d := by
  obtain ⟨c, hc, hkind, hident, hstored⟩ := exists_change hop i.kind.name i.ident blob
  obtain ⟨data, hdata, -⟩ := Option.map_eq_some_iff.1 hstored
  rw [← hkind, ← hident] at hnull
  have hunpaired : ∀ c' ∈ [c], c'.Unpaired := (proper_of_regular r hkind hident).unpaired
  obtain ⟨d, happly, hbatch, hrecover⟩ :=
    w.apply_null (unpaired_batchName s.nextBatch) hunpaired hdata hnull
  have hflush := flush_yields (s := s) (l := single c) rfl (by simp [single, ChangeList.added]) happly
  exact ⟨d, handOver_yields hb hc h hflush, hbatch, hrecover⟩

/-- An item is stamped and handed over. -/
theorem save_yields (r : i.Regular) {clock : Clock} (hclock : s.clock.advance = .ok clock)
    {out : Except Failure Unit}
    (h : (handOver (i.stamped s.user s.clock.now) op).Yields { s with clock } out s') :
    (save op).Yields (s, i) out (s', i.stamped s.user s.clock.now) := by
  have hread := Session.readClock_yields s
  rw [hclock] at hread
  have hstamp : (stamp s.user).Yields (s, i) (.ok ())
      ({ s with clock }, i.stamped s.user s.clock.now) :=
    hread.onFirst.bind (r.stamp_yields _ _).onSecond
  unfold save
  refine yields_state_bind_iff.2 (hstamp.bind (yields_state_bind_iff.2 ?_))
  have hfirst := h.onFirst (t := i.stamped s.user s.clock.now)
  cases out with
  | ok a => exact hfirst.bind (yields_report _ _)
  | error e => exact hfirst.bind_error

/-- Without a time nothing is written. -/
theorem save_yields_clock {e : ClockFault} (hclock : s.clock.advance = .error e) :
    (save op).Yields (s, i) (.error (.clock e)) (s, i) := by
  have hread := Session.readClock_yields s
  rw [hclock] at hread
  have hstamp : (stamp s.user).Yields (s, i) (.error (.clock e)) (s, i) := hread.onFirst.bind_error
  exact yields_state_bind_iff.2 hstamp.bind_error

/-- An item that is found and takes the input is stamped and handed over. -/
theorem update_yields {item : Item} {form : Form} {clock : Clock} {out : Except Failure Unit}
    (hready : s.Ready) (hfind : (find ident).Yields s (.ok item) s) (r : item.Regular)
    (hform : (item.payload.check form).success = true) (hclock : s.clock.advance = .ok clock)
    (hi : i = Item.stamped s.user s.clock.now { item with payload := item.payload.entered form })
    (h : (handOver i .update).Yields { s with input := form, clock := clock } out s') :
    (update ident form).Yields s (out.map fun _ => i) s' := by
  subst hi
  have hsave := save_yields (s := { s with input := form }) (r.entered form) hclock h
  have hcheck := check_yields r hready.closed form
  rw [if_pos hform] at hcheck
  have hwrite : (writeInput form .update).Yields (s, item) out _ :=
    yields_state_bind_iff.2 (hcheck.onFirst.bind ((Item.applyForm_yields hform).onSecond.bind hsave))
  have hget : (get ident).Yields s (.ok item) s := hready.ensureOpen.bind hfind
  refine hget.bind ?_
  cases out with
  | ok _ => exact hwrite.withLocal.bind (yields_pure _ _)
  | error e => exact hwrite.withLocal.bind_error

/-! ## Deleting -/

/-- Without a record file there is nothing to delete. -/
theorem delete_yields_missing (h : s.Ready) (hf : Repository.find? ident s.disk = none) :
    (delete ident).Yields s (.ok false) s := by
  have hlook := lookUp_yields (s := s) fun d => .ok (Repository.entries none d)
  refine h.requireRepository.bind (hlook.bind ?_)
  rw [Repository.find?_entries, hf]
  exact yields_pure false s

/-- The record file that is found is deleted as a batch of its own. -/
theorem delete_yields_found (h : s.Ready) {f : Repository.RecordFile}
    (hf : Repository.find? ident s.disk = some f) {r : Except Failure (Option Text)} {l : ChangeList}
    (hflush : ChangeList.flush.Yields (s, single (.delete f.kind ident)) r (s', l)) :
    (delete ident).Yields s (r.map fun _ => true) s' := by
  have hlook := lookUp_yields (s := s) fun d => .ok (Repository.entries none d)
  have hadd : (ChangeList.delete f.kind ident).Yields {} (.ok ()) (single (.delete f.kind ident)) :=
    ChangeList.append_yields ⟨rfl, rfl⟩
  have hdiscard := hflush.withLocal.discard
  refine h.requireRepository.bind (hlook.bind ?_)
  rw [Repository.find?_entries, hf]
  refine hadd.runOn.bind ?_
  cases r with
  | ok batch => exact hdiscard.bind ((yields_report _ _).bind (yields_pure true s'))
  | error e => exact hdiscard.bind_error

/-- Without a record there is nothing to delete. -/
theorem delete_yields_none (rep : Represents s.disk m) (h : s.Ready) (hm : m ident = none) :
    (delete ident).Yields s (.ok false) s := delete_yields_missing h (rep.find?_eq_none hm)

/-- A record is deleted as a batch of its own. -/
theorem delete_yields (rep : Represents s.disk m) (h : s.Ready) {v : Text × Bytes}
    (hm : m ident = some v) {r : Except Failure (Option Text)} {l : ChangeList}
    (hflush : ChangeList.flush.Yields (s, single (.delete v.1 ident)) r (s', l)) :
    (delete ident).Yields s (r.map fun _ => true) s' :=
  delete_yields_found h (rep.find?_eq_some hm) hflush

end Store

/-! ## Actions -/

namespace Dispatch

section Acting

variable {s s' : Session} {i acted : Item} {a : Action} {ident : Text} {answer : Response}

/-- An item on which an action fails is not written. -/
theorem actOnItem_yields_error {e : Failure} (hfind : (Store.find ident).Yields s (.ok i) s)
    (hact : (Item.act a.name s.surroundings).Yields i (.error e) acted) :
    (actOnItem a ident).Yields s (.error e) s :=
  hfind.bind (yields_state_bind_iff.2 hact.onSecond.bind_error.withLocal.bind_error)

/-- An item that takes an action is saved, and the answer is that of the action. -/
theorem actOnItem_yields {r : Except Failure Unit} {i' : Item}
    (hfind : (Store.find ident).Yields s (.ok i) s)
    (hact : (Item.act a.name s.surroundings).Yields i (.ok answer) acted)
    (hsave : (Store.save .update).Yields (s, acted) r (s', i')) :
    (actOnItem a ident).Yields s (r.map fun _ => answer) s' := by
  have hbody : Procedure.Yields (do
      let response ← onSecond (Item.act a.name s.surroundings)
      Store.save .update
      return response) (s, i) (r.map fun _ => answer) (s', i') := by
    refine hact.onSecond.bind ?_
    cases r with
    | error e => exact hsave.bind_error
    | ok _ => exact hsave.bind (yields_pure answer (s', i'))
  have hlocal := hbody.withLocal
  refine hfind.bind (yields_state_bind_iff.2 ?_)
  cases r with
  | error e => exact hlocal.bind_error
  | ok _ => exact hlocal.bind (yields_pure answer s')

end Acting

end Dispatch

end RecordStore
