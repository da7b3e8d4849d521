import RecordStore.Proofs.Repository.Change

/-!
# RecordStore.Proofs.Repository.Replay

Replaying the changes of a committed batch.  `Replaying waiting batch changes m j d` is the state of
a disk on which the first `j` changes are done: the records are those of `m` with these changes, and
the staged files of the others are still there.  One change leads to the next state
(`Replaying.replayChange`), a change that is done already leads nowhere
(`Replaying.replayChange_done`), and so a replay that begins anew ends in the same state as one that
was never interrupted (`Replaying.replayChanges`).
-/

namespace RecordStore

open Disk (Program Step)
open RecordName (Valid file)

namespace Repository

/-! ## Changes of a map -/

/-- The records after a change. -/
def applied (m : Contents) (c : Change) : Contents := Function.update m c.ident c.stored

/-- The records after changes, one after the other. -/
def appliedAll (m : Contents) (changes : List Change) : Contents := changes.foldl applied m

theorem appliedAll_cons (m : Contents) (c : Change) (cs : List Change) :
    appliedAll m (c :: cs) = appliedAll (applied m c) cs := rfl

theorem appliedAll_concat (m : Contents) (cs : List Change) (c : Change) :
    appliedAll m (cs ++ [c]) = applied (appliedAll m cs) c := by
  simp [appliedAll]

/-- Changes of other identifiers leave a record as it is. -/
theorem appliedAll_of_not_mem {ident : Text} (m : Contents) {cs : List Change}
    (h : ident ∉ cs.map Change.ident) : appliedAll m cs ident = m ident := by
  induction cs generalizing m with
  | nil => rfl
  | cons c cs ih =>
      rw [List.map_cons, List.mem_cons, not_or] at h
      rw [appliedAll_cons, ih _ h.2, applied, Function.update_of_ne h.1]

/-- Of changes with identifiers of their own, each leaves what it stores. -/
theorem appliedAll_of_mem (m : Contents) {cs : List Change} {c : Change} (hc : c ∈ cs)
    (hn : (cs.map Change.ident).Nodup) : appliedAll m cs c.ident = c.stored := by
  induction cs generalizing m with
  | nil => cases hc
  | cons c' cs ih =>
      rw [List.map_cons, List.nodup_cons] at hn
      rw [appliedAll_cons]
      rcases List.mem_cons.1 hc with rfl | hc
      · rw [appliedAll_of_not_mem _ hn.1, applied, Function.update_self]
      · exact ih _ hc hn.2

/-! ## A change of records -/

namespace Represents

variable {d : Disk} {m : Contents} {batch : Text} {n : Nat} {c : Change}

/-- A change whose staged file is there changes the map at its identifier. -/
theorem carried (r : Represents d m) (hv : Valid c.kind c.ident)
    (hstaged : d.node? (stagedPath batch n) = c.data?.map .file) :
    Represents (carried batch n c d) (applied m c) := by
  have ho : Offered c (d.node? (stagedPath batch n)) := .inr hstaged
  refine r.update ?_ ?_ ?_
  · intro k i hk hi
    exact node?_carried_other ho hv (record_ne_staged _ _ _)
      fun _ hk' => singleton_file_ne hk hk' (.inl hi)
  · intro k hk
    rw [node?_carried_record ho, hstaged]
    exact leaves_eq_stored hv (fun _ hk => r.node?_file hk) hk
  · intro v hstored
    obtain ⟨data, -, rfl⟩ := Option.map_eq_some_iff.1 hstored
    exact hv

/-- Nothing is taken away when a record is stored under the kind that it has. -/
theorem outdated?_eq_none (r : Represents d m)
    (h : ∀ v ∈ m c.ident, c.data? ≠ none ∧ v.1 = c.kind) : outdated? c d = none := by
  cases hm : m c.ident with
  | none => rw [outdated?, r.find?_eq_none hm]; rfl
  | some v =>
      obtain ⟨hdata, hkind⟩ := h v hm
      simp [outdated?, r.find?_eq_some hm, hkind, hdata]

/-- The replay of a change that is done already does nothing. -/
theorem replayProgram_runs_done (r : Represents d m) (hv : Valid c.kind c.ident) (hfits : c.Fits)
    (hm : m c.ident = c.stored) (hdir : d.node? (batchPath batch) = some .directory)
    (hstaged : d.node? (stagedPath batch n) = none) :
    (replayProgram batch n c).Runs d [] () d := by
  have hout : outdated? c d = none := by
    refine r.outdated?_eq_none fun v hstored => ?_
    rw [hm] at hstored
    obtain ⟨data, hdata, rfl⟩ := Option.map_eq_some_iff.1 hstored
    exact ⟨by simp [hdata], rfl⟩
  have hcarried : Repository.carried batch n c d = d := by
    rw [Repository.carried, hout, settledIn, hstaged]
    rfl
  have hruns := replayProgram_runs_carried hdir hv (.inl hstaged)
    (clear_of_noDirectory r.noDirectory hv hfits _)
  rwa [moveSteps, if_pos hstaged, hout, hcarried] at hruns

end Represents

/-! ## The state of a replay -/

/-- A batch whose changes have identifiers of their own and names that files can have. -/
structure ProperChanges (changes : List Change) : Prop where
  nodup : (changes.map Change.ident).Nodup
  valid : ∀ c ∈ changes, Valid c.kind c.ident
  unpaired : ∀ c ∈ changes, c.Unpaired

namespace ProperChanges

variable {changes : List Change} {c c' : Change} {i j n : Nat}

/-- Two changes of a batch with one identifier are one. -/
theorem index_eq (hp : ProperChanges changes) (hi : changes[i]? = some c) (hj : changes[j]? = some c')
    (h : c.ident = c'.ident) : i = j := by
  have hlen : i < (changes.map Change.ident).length := by
    rw [List.length_map]
    exact (List.getElem?_eq_some_iff.1 hi).1
  refine (List.getElem?_inj hlen hp.nodup).1 ?_
  rw [List.getElem?_map, List.getElem?_map, hi, hj, Option.map_some, Option.map_some, h]

/-- The first changes leave the record of a later one as it is. -/
theorem appliedAll_take_of_le (hp : ProperChanges changes) (m : Contents) (hc : changes[n]? = some c)
    (hn : j ≤ n) : appliedAll m (changes.take j) c.ident = m c.ident := by
  refine appliedAll_of_not_mem m fun hmem => ?_
  obtain ⟨c', hc', heq⟩ := List.mem_map.1 hmem
  obtain ⟨i, hi⟩ := List.mem_iff_getElem?.1 hc'
  rw [List.getElem?_take] at hi
  split at hi
  · next hlt =>
    have := hp.index_eq hi hc heq
    omega
  · cases hi

/-- The first changes leave what they store. -/
theorem appliedAll_take_of_lt (hp : ProperChanges changes) (m : Contents) (hc : changes[n]? = some c)
    (hn : n < j) : appliedAll m (changes.take j) c.ident = c.stored := by
  have hmem : c ∈ changes.take j := by
    refine List.mem_iff_getElem?.2 ⟨n, ?_⟩
    rw [List.getElem?_take_of_lt hn, hc]
  exact appliedAll_of_mem m hmem (hp.nodup.sublist ((List.take_sublist j changes).map _))

end ProperChanges

/-- A batch of such changes whose records all have names that files can have. -/
structure StorableChanges (changes : List Change) : Prop extends ProperChanges changes where
  fits : ∀ c ∈ changes, c.Fits

theorem StorableChanges.kept {changes : List Change} (h : StorableChanges changes) :
    ∀ c ∈ changes, c.Kept := fun c hc hdata => (h.fits c hc hdata).kept

/-- A disk on which the first `j` changes of a committed batch are done.  In the directory of batches
there may stand what a condition allows, besides the batch. -/
structure Replaying (waiting : Text → Node → Prop) (batch : Text) (changes : List Change)
    (m : Contents) (j : Nat) (d : Disk) : Prop where
  wellFormed : d.WellFormed
  represents : Represents d (appliedAll m (changes.take j))
  manifest : ∃ content, d.node? (manifestPath batch) = some (.file content)
    ∧ Manifest.encode batch changes = .ok content
  staged : ∀ n c, changes[n]? = some c →
    d.node? (stagedPath batch n) = if n < j then none else c.data?.map .file
  others : ∀ name n, d.node? (batchPath name) = some n → name = batch ∨ waiting name n

/-- A disk on which a replay was cut: in one of its states, or within one of the changes. -/
def Interrupted (waiting : Text → Node → Prop) (batch : Text) (changes : List Change)
    (m : Contents) (d' : Disk) : Prop :=
  (∃ j ≤ changes.length, Replaying waiting batch changes m j d') ∨
    ∃ j c d complete, changes[j]? = some c ∧ Replaying waiting batch changes m j d
      ∧ (replayProgram batch j c).Stops d complete d'

/-- No kind changes: what is stored under an identifier keeps the kind of its record. -/
def KeepsKinds (m : Contents) (changes : List Change) : Prop :=
  ∀ c ∈ changes, c.data? ≠ none → ∀ v ∈ m c.ident, v.1 = c.kind

namespace Replaying

variable {waiting : Text → Node → Prop} {batch : Text} {changes : List Change} {m : Contents}
  {j : Nat} {d : Disk} {c : Change}

theorem directory (r : Replaying waiting batch changes m j d) :
    d.node? (batchPath batch) = some .directory := by
  obtain ⟨content, hn, -⟩ := r.manifest
  have h := r.wellFormed.node?_dropLast hn
  rwa [manifestPath, List.dropLast_concat] at h

theorem offered (r : Replaying waiting batch changes m j d) {n : Nat} (hc : changes[n]? = some c) :
    Offered c (d.node? (stagedPath batch n)) := by
  rw [r.staged n c hc]
  split
  · exact .inl rfl
  · exact .inr rfl

/-- The staged file of the next change is there. -/
theorem staged_next (r : Replaying waiting batch changes m j d) (hc : changes[j]? = some c) :
    d.node? (stagedPath batch j) = c.data?.map .file := by
  rw [r.staged j c hc, if_neg (Nat.lt_irrefl j)]

section Next

variable (r : Replaying waiting batch changes m j d) (hp : StorableChanges changes)
  (hc : changes[j]? = some c)
include r hp hc

/-- No directory is in the way of the next change. -/
theorem clear : Clear c (d.node? (stagedPath batch j)) d :=
  clear_of_noDirectory r.represents.noDirectory (hp.valid c (List.mem_of_getElem? hc))
    (hp.fits c (List.mem_of_getElem? hc)) _

/-- A change that was not done yet is done. -/
theorem replayChange_runs : (replayProgram batch j c).Runs d
    (moveSteps batch j c d ++ discardSteps (outdated? c d)) () (carried batch j c d) :=
  replayProgram_runs_carried r.directory (hp.valid c (List.mem_of_getElem? hc)) (r.offered hc)
    (r.clear hp hc)

/-- A change that is done leads to the next state. -/
theorem replayChange : Replaying waiting batch changes m (j + 1) (carried batch j c d) := by
  have hv := hp.valid c (List.mem_of_getElem? hc)
  have hother := fun {p} => node?_carried_other (r.offered hc) hv (p := p)
  refine ⟨wellFormed_carried r.wellFormed (r.offered hc) (r.clear hp hc), ?_, ?_, ?_, ?_⟩
  · have htake : changes.take (j + 1) = changes.take j ++ [c] := by
      rw [List.take_add_one, hc]; rfl
    rw [htake, appliedAll_concat]
    exact r.represents.carried hv (r.staged_next hc)
  · rw [hother (manifestPath_ne_stagedPath batch j) (by simp [manifestPath, batchPath])]
    exact r.manifest
  · intro n c' hc'
    by_cases hn : n = j
    · subst hn
      rw [node?_carried_staged (r.offered hc), if_pos (Nat.lt_succ_self n)]
    · rw [hother (fun h => hn (stagedPath_inj h)) (by simp [stagedPath, batchPath]),
        r.staged n c' hc']
      have hiff : n < j ↔ n < j + 1 := by omega
      simp only [hiff]
  · intro name x h
    rw [hother (by simp [stagedPath, batchPath]) (by simp [batchPath])] at h
    exact r.others name x h

/-- A change that keeps the kind of its record is one step, or none. -/
theorem length_steps_of_keepsKinds (hkeep : KeepsKinds m changes) :
    (moveSteps batch j c d ++ discardSteps (outdated? c d)).length ≤ 1 := by
  cases hdata : c.data? with
  | none =>
      have hstaged := r.staged_next hc
      rw [hdata, Option.map_none] at hstaged
      rw [moveSteps, if_pos hstaged]
      exact length_discardSteps _
  | some data =>
      have hsome : c.data? ≠ none := by simp [hdata]
      have hout : outdated? c d = none := by
        refine r.represents.outdated?_eq_none fun v hv => ⟨hsome, ?_⟩
        rw [hp.appliedAll_take_of_le m hc (Nat.le_refl j)] at hv
        exact hkeep c (List.mem_of_getElem? hc) hsome v hv
      rw [hout, discardSteps, Option.toList_none, List.map_nil, List.append_nil]
      exact length_moveSteps _ _ _ _

end Next

/-- A change that is done already is left alone. -/
theorem replayChange_done (r : Replaying waiting batch changes m j d) (hp : StorableChanges changes)
    {n : Nat} (hc : changes[n]? = some c) (hn : n < j) :
    (replayProgram batch n c).Runs d [] () d := by
  refine r.represents.replayProgram_runs_done (hp.valid c (List.mem_of_getElem? hc))
    (hp.fits c (List.mem_of_getElem? hc)) (hp.appliedAll_take_of_lt m hc hn) r.directory ?_
  rw [r.staged n c hc, if_pos hn]

theorem replayChanges_cons (n : Nat) (c : Change) (cs : List Change) :
    Repository.replayChanges (batchPath batch) (Manifest.changesJson n (c :: cs))
      = replayProgram batch n c >>= fun _ =>
        Repository.replayChanges (batchPath batch) (Manifest.changesJson (n + 1) cs) := by
  rw [Manifest.changesJson, Repository.replayChanges, replayChange_eq]

/-- **Replay.** Replaying all changes again leads from every state of a replay to its end. -/
theorem replayChanges (r : Replaying waiting batch changes m j d) (hp : StorableChanges changes)
    {rest : List Change} {n : Nat} (hrest : changes.drop n = rest) (hn : n ≤ j)
    (hj : j ≤ changes.length) :
    ∃ ss d', (Repository.replayChanges (batchPath batch) (Manifest.changesJson n rest)).Runs
        d ss () d' ∧ Replaying waiting batch changes m changes.length d' := by
  induction rest generalizing n j d with
  | nil =>
      have hlen : changes.length ≤ n := List.drop_eq_nil_iff.1 hrest
      have hend : j = changes.length := by omega
      subst hend
      exact ⟨[], d, .done () d, r⟩
  | cons c rest ih =>
      have hget : changes[n]? = some c := by
        rw [← List.head?_drop, hrest]; rfl
      have hdrop : changes.drop (n + 1) = rest := by
        rw [← List.tail_drop, hrest]; rfl
      have hlen : n < changes.length := (List.getElem?_eq_some_iff.1 hget).1
      rw [replayChanges_cons]
      by_cases hlt : n < j
      · obtain ⟨ss, d', hruns, r'⟩ := ih r hdrop hlt hj
        exact ⟨[] ++ ss, d', (r.replayChange_done hp hget hlt).andThen hruns, r'⟩
      · have heq : n = j := by omega
        subst heq
        obtain ⟨ss, d', hruns, r'⟩ := ih (r.replayChange hp hget) hdrop (Nat.le_refl _) hlen
        exact ⟨_, d', (r.replayChange_runs hp hget).andThen hruns, r'⟩

/-- A replay is cut in one of its states, or within a change. -/
theorem replayChanges_stops (r : Replaying waiting batch changes m j d) (hp : StorableChanges changes)
    {rest : List Change} (hrest : changes.drop j = rest) (hj : j ≤ changes.length)
    {complete : List Step} {d' : Disk}
    (h : (Repository.replayChanges (batchPath batch) (Manifest.changesJson j rest)).Stops
      d complete d') : Interrupted waiting batch changes m d' := by
  induction rest generalizing j d complete with
  | nil =>
      obtain ⟨-, rfl⟩ := h.of_no_steps rfl
      exact .inl ⟨j, hj, r⟩
  | cons c rest ih =>
      have hget : changes[j]? = some c := by
        rw [← List.head?_drop, hrest]; rfl
      have hdrop : changes.drop (j + 1) = rest := by
        rw [← List.tail_drop, hrest]; rfl
      have hlen : j < changes.length := (List.getElem?_eq_some_iff.1 hget).1
      rw [replayChanges_cons] at h
      rcases h.of_runs_andThen (r.replayChange_runs hp hget) with h | ⟨more, -, h⟩
      · exact .inr ⟨j, c, d, complete, hget, r, h⟩
      · exact ih (r.replayChange hp hget) hdrop hlen h

end Replaying

/-- A replay that keeps all kinds is cut in one of its states only. -/
theorem Interrupted.replaying {waiting : Text → Node → Prop} {batch : Text} {changes : List Change}
    {m : Contents} {d : Disk} (h : Interrupted waiting batch changes m d)
    (hp : StorableChanges changes) (hkeep : KeepsKinds m changes) :
    ∃ j ≤ changes.length, Replaying waiting batch changes m j d := by
  rcases h with h | ⟨j, c, d₀, complete, hget, r, h⟩
  · exact h
  · have hlen : j < changes.length := (List.getElem?_eq_some_iff.1 hget).1
    have hwhole := List.forall_mem_append.2
      ⟨whole_moveSteps batch j c d₀, whole_discardSteps (outdated? c d₀)⟩
    rcases h.of_runs (r.replayChange_runs hp hget) (r.length_steps_of_keepsKinds hp hget hkeep) hwhole
      with ⟨-, rfl⟩ | ⟨-, rfl⟩
    · exact ⟨j, Nat.le_of_lt hlen, r⟩
    · exact ⟨j + 1, hlen, r.replayChange hp hget⟩

/-! ## A whole replay -/

/-- The replay of a batch with its manifest at hand. -/
def finishBatch (batch : Text) (changes : List Change) : Program Unit := do
  replayChanges (batchPath batch) (Manifest.changesJson 0 changes)
  Program.step (.removeTree (batchPath batch))

/-- A replay first reads the manifest. -/
theorem replay_eq_of_read {batch shown : Text} {changes : List Change} {d : Disk} {content : Bytes}
    (hnode : d.node? (manifestPath batch) = some (.file content))
    (hread : Manifest.read content = .ok (Manifest.json shown changes)) :
    ∃ next, replay (batchPath batch) = .looked next ∧ next d = finishBatch batch changes := by
  refine ⟨_, rfl, ?_⟩
  rw [manifestPath] at hnode
  simp only [Program.andThen, Disk.read_file hnode, Except.mapError, Program.ofExcept,
    Program.done_bind, hread, Manifest.changes_json]
  rfl

/-- A manifest that was written is read as it was written. -/
theorem replay_eq {batch : Text} {changes : List Change} {d : Disk} {content : Bytes}
    (hnode : d.node? (manifestPath batch) = some (.file content))
    (hencode : Manifest.encode batch changes = .ok content) (hb : Json.Unpaired batch)
    (hp : ∀ c ∈ changes, c.Unpaired) :
    ∃ next, replay (batchPath batch) = .looked next ∧ next d = finishBatch batch changes := by
  obtain ⟨content', hencode', hread⟩ := Manifest.read_encode hb hp
  rw [hencode] at hencode'
  cases hencode'
  exact replay_eq_of_read hnode hread

end Repository

end RecordStore
