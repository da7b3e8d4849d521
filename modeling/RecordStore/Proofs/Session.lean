import RecordStore.Proofs.Item
import RecordStore.Proofs.Repository.Applied
import RecordStore.Proofs.Repository.Refusal
import RecordStore.Session

/-!
# RecordStore.Proofs.Session

What a session does to its repository.  A list of proper changes is handed over as one batch, which
is put in place as a whole or refused before anything is done (`flush_yields`).  It is never refused
by a repository that is at rest (`AtRest`): one without any batch, whose directory of batches is no
file.  A list that begins with a record of a name that no file can have, because there is a null in it,
is neither put in place nor refused in time (`AtRest.apply_null`).
-/

namespace RecordStore

open Procedure

namespace Repository

variable {waiting : Text → Node → Prop} {m : Contents} {d : Disk} {batch : Text}
  {changes : List Change}

/-- A batch is put in place as a whole, or refused before anything is done. -/
theorem apply_yields (s : Settled waiting m d) (hb : Json.Unpaired batch)
    (hp : StorableChanges changes) :
    (∃ d', (apply batch changes).Yields d (.ok batch) d' ∧ Settled waiting (appliedAll m changes) d')
      ∨ ∃ f, (apply batch changes).Yields d (.error f) d := by
  rcases applyProgram_runs_or_refused s hb hp with ⟨ss, d', hruns, s', -⟩ | ⟨-, f, hf⟩
  · exact .inl ⟨d', hruns.yields, s'⟩
  · refine .inr ⟨f, ?_⟩
    rw [apply, applyProgram, Disk.Program.run_bind]
    exact hf.bind_error

/-- A repository without any batch. -/
structure AtRest (m : Contents) (d : Disk) : Prop where
  settled : Settled (fun _ _ => False) m d
  pending : ∀ bytes, d.node? pending ≠ some (.file bytes)

/-- An empty repository is at rest. -/
theorem atRest_empty : AtRest (fun _ => none) {} :=
  ⟨⟨Disk.wellFormed_empty, represents_empty, by simp [Disk.node?, batchPath]⟩, by simp [Disk.node?]⟩

/-- A repository at rest to which someone adds the file of a record, or overwrites it, is at rest. -/
theorem AtRest.put_file (r : AtRest m d) {kind ident : Text} (hv : RecordName.Valid kind ident)
    (hkind : ∀ v ∈ m ident, v.1 = kind) (bytes : Bytes) :
    AtRest (Function.update m ident (some (kind, bytes)))
      (d.put [RecordName.file kind ident] (.file bytes)) := by
  have hput := Disk.node?_put (p := [RecordName.file kind ident]) (by simp) (.file bytes) d
  refine ⟨⟨?_, r.settled.represents.put_file hv hkind bytes, fun name n hn => ?_⟩, fun b hn => ?_⟩
  · exact r.settled.wellFormed.put (by simp) rfl (.inr (r.settled.represents.noDirectory hv))
  · rw [hput, if_neg (by simp [batchPath])] at hn
    exact r.settled.others name n hn
  · rw [hput, if_neg (by simpa [Repository.pending] using Ne.symm (file_ne_pendingName hv))] at hn
    exact r.pending b hn

/-- The names of batches are free in a repository at rest. -/
theorem AtRest.free (r : AtRest m d) (batch : Text) : ¬ Taken batch d := by
  rintro (⟨bytes, hn⟩ | ⟨n, hn⟩)
  · exact r.pending bytes hn
  · exact r.settled.others batch n hn

/-- A repository at rest takes every batch, and is at rest again. -/
theorem AtRest.apply_yields (r : AtRest m d) (hb : Json.Unpaired batch) (hp : StorableChanges changes) :
    ∃ d', (apply batch changes).Yields d (.ok batch) d' ∧ AtRest (appliedAll m changes) d' := by
  obtain ⟨ss, d', hruns, s', hpending⟩ := applyProgram_runs r.settled hb hp (r.free batch)
  exact ⟨d', hruns.yields, s', by simp [hpending]⟩

/-- A batch that begins with a record of a name with a null in it stays in a repository that was at
rest, and every later opening fails at it. -/
theorem AtRest.apply_null (r : AtRest m d) (hb : Json.Unpaired batch) {c : Change} {cs : List Change}
    (hunpaired : ∀ c' ∈ c :: cs, c'.Unpaired) {data : Bytes} (hdata : c.data? = some data)
    (hnull : Path.onDisk (RecordName.file c.kind c.ident) = .error .null) :
    ∃ d', (apply batch (c :: cs)).Yields d (.error (.change .nullInName)) d'
      ∧ d'.node? (batchPath batch) = some .directory
      ∧ recover.Yields d' (.error (.change .nullInName)) d' := by
  obtain ⟨_, d', -, -, h, happly, hopen⟩ := apply_stays_pending r.settled.wellFormed hb hunpaired
    (r.free batch) (fun name => r.settled.others name _) hdata fun _ _ => recordPlace_of_null hnull _
  exact ⟨d', happly, h.directory, hopen⟩

end Repository

/-! ## Records of items -/

/-- An item whose record has a name that a file can have. -/
def Item.Named (i : Item) : Prop := Path.IsFileName (RecordName.file i.kind.name i.ident)

namespace Item.Regular

variable {i : Item}

theorem kind_name (r : i.Regular) : i.kind.name = Kind.page.name ∨ i.kind.name = Kind.task.name := by
  rw [Item.kind, r.kind]
  exact r.payload.kind_name

/-- Kind and identifier of an item make the name of a record file. -/
theorem valid (r : i.Regular) : RecordName.Valid i.kind.name i.ident := by
  have hkind : i.kind.name ≠ [] ∧ ¬ RecordName.separator <:+: i.kind.name := by
    rcases r.kind_name with h | h
    · rw [h]; decide
    · rw [h]; decide
  exact ⟨hkind.1, hkind.2, r.header.ident.2⟩

/-- A slash in the name of an item's record comes from the identifier. -/
theorem slash_not_mem_file_iff (r : i.Regular) :
    .char '/' ∉ RecordName.file i.kind.name i.ident ↔ .char '/' ∉ i.ident := by
  have hkind : .char '/' ∉ i.kind.name := by
    rcases r.kind_name with h | h
    · rw [h]; decide
    · rw [h]; decide
  rw [RecordName.slash_not_mem_file_iff]
  exact and_iff_right hkind

theorem unpaired (r : i.Regular) : Json.Unpaired i.kind.name ∧ Json.Unpaired i.ident := by
  exact ⟨Json.unpaired_of_plain r.header.kind.1, Json.unpaired_of_plain r.header.ident.1⟩

end Item.Regular

/-! ## Handing changes over -/

theorem unpaired_batchName (n : Nat) : Json.Unpaired (batchName n) := Json.unpaired_ofChars _

section Flush

open Repository (Admits Applied Contents Settled ProperChanges StorableChanges appliedAll)

variable {waiting : Text → Node → Prop} {m : Contents} {s : Session} {l : ChangeList}

/-- The session when the next batch has its name. -/
def Session.named (s : Session) : Session := { s with nextBatch := s.nextBatch + 1 }

theorem applyChanges_yields {changes : List Change} {r : Except Failure Text} {d : Disk}
    (h : (Repository.apply (batchName s.nextBatch) changes).Yields s.disk r d) :
    (Session.applyChanges changes).Yields s r { s.named with disk := d } := by
  unfold Session.applyChanges
  refine yields_state_bind_iff.2 ((yields_modify _ _).bind ?_)
  exact Yields.onPart (s := s.named) h

/-- A list is handed over once. -/
theorem flush_yields_again (hl : l.flushed = true) :
    ChangeList.flush.Yields (s, l) (.error (.programming .flushedTwice)) (s, l) := by
  unfold ChangeList.flush
  refine yields_state_bind_iff.2 ?_
  simp only [hl, if_true]
  exact yields_fail _ _

/-- An empty list is handed over by doing nothing. -/
theorem flush_yields_empty (hl : l.flushed = false) (h : l.changes = []) :
    ChangeList.flush.Yields (s, l) (.ok none) (s, { l with flushed := true }) := by
  unfold ChangeList.flush
  refine yields_state_bind_iff.2 ?_
  have hempty : l.changes.isEmpty = true := by simp [h]
  simp only [hl, hempty, Bool.false_eq_true, if_false, if_true]
  refine (yields_pure _ _).bind ?_
  exact ((yields_modify _ l).onSecond).bind (yields_pure _ _)

/-- A list of changes is handed over by applying it. -/
theorem flush_yields (hl : l.flushed = false) (h : l.changes ≠ []) {r : Except Failure Text} {d : Disk}
    (happly : (Repository.apply (batchName s.nextBatch) l.changes).Yields s.disk r d) :
    ChangeList.flush.Yields (s, l) (r.map some)
      ({ s.named with disk := d }, match r with
        | .ok _ => { l with flushed := true }
        | .error _ => l) := by
  have hempty : l.changes.isEmpty = false := by simp [h]
  have hchanges := (applyChanges_yields happly).onFirst (t := l)
  unfold ChangeList.flush
  refine yields_state_bind_iff.2 ?_
  simp only [hl, hempty, Bool.false_eq_true, if_false]
  cases r with
  | error f => exact (hchanges.map_error some).bind_error
  | ok name =>
      refine (hchanges.map some).bind ?_
      exact ((yields_modify _ l).onSecond).bind (yields_pure _ _)

/-- A list that was handed over is empty, or its changes were applied. -/
theorem flush_yields_ok (hl : l.flushed = false) {name : Option Text} {st : Session × ChangeList}
    (h : ChangeList.flush.Yields (s, l) (.ok name) st) :
    (l.changes = [] ∧ st = (s, { l with flushed := true }))
      ∨ l.changes ≠ [] ∧ ∃ batch d,
        (Repository.apply (batchName s.nextBatch) l.changes).Yields s.disk (.ok batch) d
          ∧ st = ({ s.named with disk := d }, { l with flushed := true }) := by
  by_cases hempty : l.changes = []
  · exact .inl ⟨hempty, (h.unique (flush_yields_empty hl hempty)).2⟩
  · rcases error_or_ok (Repository.apply (batchName s.nextBatch) l.changes) s.disk with
      ⟨f, d, happly⟩ | ⟨batch, d, happly⟩
    · cases (h.unique (flush_yields hl hempty happly)).1
    · exact .inr ⟨hempty, batch, d, happly, (h.unique (flush_yields hl hempty happly)).2⟩

/-- A list of proper changes is put in place as a whole, if it holds anything, or refused before
anything is done. -/
theorem flush_settled (w : Settled waiting m s.disk) (hl : l.flushed = false)
    (hp : StorableChanges l.changes) :
    (∃ batch d n, ChangeList.flush.Yields (s, l) (.ok batch)
        ({ s with disk := d, nextBatch := n }, { l with flushed := true })
        ∧ Settled waiting (appliedAll m l.changes) d ∧ (batch = none ↔ l.changes = []))
      ∨ ∃ f, ChangeList.flush.Yields (s, l) (.error f) (s.named, l) := by
  by_cases hempty : l.changes = []
  · refine .inl ⟨none, s.disk, s.nextBatch, flush_yields_empty hl hempty, ?_, by simp [hempty]⟩
    rw [hempty]
    exact w
  · rcases Repository.apply_yields w (unpaired_batchName s.nextBatch) hp with
      ⟨d, happly, w'⟩ | ⟨f, happly⟩
    · exact .inl ⟨_, d, _, flush_yields hl hempty happly, w', by simp [hempty]⟩
    · exact .inr ⟨f, flush_yields hl hempty happly⟩

/-- The names that a session has for its next batches are free. -/
def Session.NamesFree (s : Session) : Prop :=
  ∀ n, s.nextBatch ≤ n → s.disk.node? (Repository.batchPath (batchName n)) = none

/-- A repository to which changes were applied has as many free names as before. -/
theorem Session.NamesFree.applied (h : s.NamesFree) {changes : List Change} {d : Disk} {n : Nat}
    (ha : Applied changes s.disk d) (hn : s.nextBatch ≤ n) :
    Session.NamesFree { s with disk := d, nextBatch := n } := by
  intro n' hn'
  rw [ha.other, h n' (Nat.le_trans hn hn')]
  · exact fun _ => by simp [Repository.batchPath, Repository.pending]
  · exact fun _ _ _ _ => by simp [Repository.batchPath]

section Applying

variable (w : s.disk.WellFormed) (hl : l.flushed = false) (hp : ProperChanges l.changes)
include w hl hp

/-- A list is handed over when the repository admits its changes, and they are applied. -/
theorem flush_applied (hfree : s.NamesFree) (ha : Admits l.changes s.disk) :
    ∃ name d n, ChangeList.flush.Yields (s, l) (.ok name)
        ({ s with disk := d, nextBatch := n }, { l with flushed := true })
      ∧ Applied l.changes s.disk d ∧ s.nextBatch ≤ n := by
  by_cases hempty : l.changes = []
  · refine ⟨none, s.disk, s.nextBatch, flush_yields_empty hl hempty, ?_, Nat.le_refl _⟩
    rw [hempty]
    exact Repository.applied_nil w
  · obtain ⟨d, happly, happlied⟩ := Repository.apply_yields_applied w
      (unpaired_batchName s.nextBatch) hp (hfree _ (Nat.le_refl _)) hempty ha
    exact ⟨_, d, s.nextBatch + 1, flush_yields hl hempty happly, happlied, Nat.le_succ _⟩

variable (hkept : ∀ c ∈ l.changes, c.Kept)
include hkept

/-- A list that was handed over was admitted by the repository. -/
theorem admits_of_flush {name : Option Text} {st : Session × ChangeList}
    (h : ChangeList.flush.Yields (s, l) (.ok name) st) : Admits l.changes s.disk := by
  rcases flush_yields_ok hl h with ⟨hempty, -⟩ | ⟨-, batch, d, happly, -⟩
  · exact ⟨by simp [hempty], fun hne => absurd hempty hne⟩
  · exact Repository.admits_of_apply w (unpaired_batchName s.nextBatch) hp hkept happly

/-- A list that was handed over stores records whose names files can have. -/
theorem storable_of_flush {name : Option Text} {st : Session × ChangeList}
    (h : ChangeList.flush.Yields (s, l) (.ok name) st) : StorableChanges l.changes where
  toProperChanges := hp
  fits := fun c hc => ((admits_of_flush w hl hp hkept h).clear c hc).fits

/-- A list that was handed over was applied. -/
theorem applied_of_flush {name : Option Text} {st : Session × ChangeList}
    (h : ChangeList.flush.Yields (s, l) (.ok name) st) : Applied l.changes s.disk st.1.disk := by
  rcases flush_yields_ok hl h with ⟨hempty, rfl⟩ | ⟨hsome, batch, d, happly, rfl⟩
  · rw [hempty]
    exact Repository.applied_nil w
  · exact Repository.applied_of_apply w (unpaired_batchName s.nextBatch) hp hsome hkept happly

end Applying

end Flush

/-! ## Looking at a session -/

/-- Whether a session is over does not depend on anything else, and is only looked at. -/
theorem ensureOpen_yields (s : Session) : Session.ensureOpen.Yields s
    (if s.closed then .error (.programming .sessionOver) else .ok ()) s := by
  unfold Session.ensureOpen
  refine yields_state_bind_iff.2 ?_
  cases s.closed with
  | true => exact yields_fail _ _
  | false => exact yields_pure _ _

/-- Whether there is a repository is only looked at. -/
theorem requireRepository_yields (s : Session) : Session.requireRepository.Yields s
    (if s.closed then .error (.programming .sessionOver)
      else if s.attached then .ok () else .error (.programming .noRepository)) s := by
  have hopen := ensureOpen_yields s
  unfold Session.requireRepository
  cases hc : s.closed with
  | true =>
      rw [hc] at hopen
      exact hopen.bind_error
  | false =>
      rw [hc] at hopen
      refine hopen.bind (yields_state_bind_iff.2 ?_)
      cases s.attached with
      | true => exact yields_pure _ _
      | false => exact yields_fail _ _

/-- A session on a disk, as it starts. -/
def Session.starting (disk : Disk) : Session where
  registry := .bundled
  disk := disk
  attached := true
  user := none
  view := .bundled
  markup := id
  input := []
  closed := false
  clock := ⟨⟨⟨2024, 1, 1, by decide⟩, 0, 0, none, Timestamp.earliest.second_lt,
    Timestamp.earliest.microsecond_lt⟩, .ok 0⟩
  today := ⟨2024, 1, 1, by decide⟩
  nextItem := 0
  nextBatch := 0

theorem Session.recordable_starting (disk : Disk) : (Session.starting disk).clock.now.Recordable := by
  simp [Session.starting, Timestamp.Recordable]

end RecordStore
