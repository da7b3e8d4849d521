import Mathlib.Data.List.Perm.Basic
import RecordStore.Proofs.Merge.Batch
import RecordStore.Proofs.Merge.Symmetry

/-!
# RecordStore.Proofs.Merge.Independent

Merging does not depend on what is merged together.  What a batch says of a conflict is determined by
the conflict alone (`Resolution.ComesFrom.unique`), and what it does to the repository by the changes
of those that are settled, each taken by itself.  So the conflicts of a batch may be merged in any
order, and in several batches.
-/

namespace RecordStore

open Procedure

namespace Merge

open RecordName (Valid file)
open Repository (Admits Applied)

/-- Merge pieces of conflicts, each as a batch of its own. -/
def mergeEach : List (List Conflict) → Procedure Session (List Batch)
  | [] => pure []
  | cs :: rest => do
    let (_, b) ← Procedure.withLocal {} (mergeAll cs)
    return b :: (← mergeEach rest)

/-! ## One conflict -/

section Resolution

variable {c : Conflict} {user : Option Text} {policy : MergePolicy} {x y : Resolution}
  {rs rs' : List Resolution} {b b' : Batch} {l : ChangeList}

/-- What settles a conflict has its identifier. -/
theorem ident_of_settlement {i : Item} {blob : Bytes}
    (h : (settlement user policy c).Yields () (.ok (i, blob)) ()) : i.ident = c.ident := by
  have happend : (ChangeList.append (.update i.kind.name i.ident blob)).Yields {} (.ok ()) _ :=
    ChangeList.append_yields ⟨rfl, rfl⟩
  rcases settles_of_resolve (resolve_yields_settled h happend) with ⟨_, _, hr, hm, -⟩ | ⟨_, hr, -⟩
  · cases hr
    exact hm.ident
  · cases hr

/-- What a batch says of a conflict is what its settlement came to. -/
theorem Resolution.ComesFrom.settlement (h : x.ComesFrom user) :
    ∃ e r, Registry.bundled.get x.conflict.kind = .ok e ∧ x.policy = e.merge
      ∧ (settlement user x.policy x.conflict).Yields () r ()
      ∧ r.map Prod.fst = x.outcome.mapError .unresolvable := by
  obtain ⟨e, l, l', hget, hpolicy, hresolve⟩ := h
  rcases error_or_ok (Merge.settlement user x.policy x.conflict) () with
    ⟨f, _, hsettlement⟩ | ⟨⟨i, blob⟩, _, hsettlement⟩
  · exact ⟨e, _, hget, hpolicy, hsettlement, ((resolve_yields_error hsettlement).unique hresolve).1⟩
  · refine ⟨e, _, hget, hpolicy, hsettlement, ?_⟩
    have happend := yields_run (ChangeList.append (.update i.kind.name i.ident blob)) l
    have hresult := (hresolve.unique (resolve_yields_settled hsettlement happend)).1
    rcases ChangeList.append_yields_iff.1 happend with ⟨-, hok, -⟩ | ⟨-, -, fault, hfault, -⟩
    · rw [hresult, hok]; rfl
    · rw [hfault] at hresult
      cases ho : x.outcome <;> rw [ho] at hresult <;> cases hresult

/-- What a batch says of a conflict is determined by the conflict. -/
theorem Resolution.ComesFrom.unique (hx : x.ComesFrom user) (hy : y.ComesFrom user)
    (h : x.conflict = y.conflict) : x = y := by
  obtain ⟨e, r, hget, hpolicy, hr, hout⟩ := hx.settlement
  obtain ⟨e', r', hget', hpolicy', hr', hout'⟩ := hy.settlement
  obtain ⟨c, policy, outcome⟩ := x
  obtain ⟨c', policy', outcome'⟩ := y
  obtain rfl : c = c' := h
  obtain rfl : policy = policy' := by
    rw [hget] at hget'
    cases hget'
    exact hpolicy.trans hpolicy'.symm
  obtain rfl := (hr.unique hr').1
  rw [hout] at hout'
  cases outcome <;> cases outcome' <;> cases hout' <;> rfl

/-- What batches say of the same conflicts is the same. -/
theorem eq_of_map_conflict (h : ∀ x ∈ rs, x.ComesFrom user) (h' : ∀ x ∈ rs', x.ComesFrom user)
    (hmap : rs.map Resolution.conflict = rs'.map Resolution.conflict) : rs = rs' := by
  refine List.ext_getElem (by simpa using congrArg List.length hmap) fun n hn hn' => ?_
  refine (h _ (List.getElem_mem hn)).unique (h' _ (List.getElem_mem hn')) ?_
  have hconflict := List.getElem_of_eq hmap (i := n) (by simpa using hn)
  simpa using hconflict

/-- What is said of a conflict holds of it. -/
theorem Resolution.ComesFrom.sound (h : x.ComesFrom user) : x.Sound := by
  obtain ⟨e, l, l', -, -, hresolve⟩ := h
  rw [Resolution.Sound]
  cases ho : x.outcome with
  | ok i =>
      rw [ho] at hresolve
      rcases settles_of_resolve hresolve with ⟨_, blob, hr, hm, hb, -⟩ | ⟨_, hr, -⟩
      · cases hr
        exact ⟨hm, blob, hb⟩
      · cases hr
  | error e =>
      rw [ho] at hresolve
      rcases settles_of_resolve hresolve with ⟨_, blob, hr, -⟩ | ⟨_, hr, -, hover⟩
      · cases hr
      · cases hr
        exact hover e rfl

/-- The changes of conflicts with identifiers of their own are those of a sound batch. -/
theorem sound_of_comesFrom (h : ∀ x ∈ rs, x.ComesFrom user)
    (hnodup : (rs.map fun x => x.conflict.ident).Nodup) : Batch.Sound (rs.map Resolution.conflict)
      ⟨rs, { changes := rs.filterMap Resolution.change? }⟩ := by
  refine ⟨rfl, fun x hx => (h x hx).sound, rfl, ?_, rfl⟩
  have hident : ∀ {x : Resolution} {c : Change}, x.change? = some c → c.ident = x.conflict.ident := by
    intro x c hc
    rw [Resolution.change?] at hc
    split at hc
    · obtain ⟨_, -, rfl⟩ := Option.map_eq_some_iff.1 hc
      rfl
    · cases hc
  rw [List.Nodup, List.pairwise_map] at hnodup ⊢
  refine hnodup.filterMap _ fun x y hne c hc c' hc' => ?_
  rw [hident hc, hident hc']
  exact hne

/-! ## Several conflicts -/

/-- A conflict is settled or handed over whatever the batch holds, if it has no change for the same
record. -/
theorem resolveOne_yields (hx : x.ComesFrom user) (ht : b.changes.Takes x.conflict.ident) :
    ∃ b', (resolveOne .bundled user x.conflict).Yields b (.ok ()) b' := by
  obtain ⟨e, r, hget, hpolicy, hr, hout⟩ := hx.settlement
  obtain ⟨l, hresolve⟩ : ∃ l, (resolve .bundled user x.policy x.conflict).Yields b.changes
      (x.outcome.mapError .unresolvable) l := by
    cases r with
    | error f =>
        rw [← hout]
        exact ⟨_, resolve_yields_error hr⟩
    | ok merged =>
        obtain ⟨i, blob⟩ := merged
        rw [← ident_of_settlement hr] at ht
        rw [← hout]
        have happend := ChangeList.append_yields (c := .update i.kind.name i.ident blob) ht
        exact ⟨_, resolve_yields_settled hr happend⟩
  rw [hpolicy] at hresolve
  exact ⟨_, (Taken.kept hget hresolve).yields⟩

/-- A batch takes a change for a record that none of its conflicts is about. -/
theorem Batch.Sound.takes {conflicts : List Conflict} (sound : b.Sound conflicts) {ident : Text}
    (hnew : ident ∉ conflicts.map Conflict.ident) : b.changes.Takes ident := by
  refine ⟨sound.pending, ChangeList.holds_eq_false_iff.2 fun hmem => ?_⟩
  obtain ⟨c, hc, rfl⟩ := List.mem_map.1 hmem
  obtain ⟨r, hr, i, blob, -, -, -, rfl⟩ := sound.mem_changes hc
  have hconflict : r.conflict ∈ conflicts := sound.conflicts ▸ List.mem_map_of_mem hr
  exact hnew (List.mem_map_of_mem hconflict)

theorem ident_not_mem_of_nodup {done rest : List Conflict}
    (h : ((done ++ c :: rest).map Conflict.ident).Nodup) : c.ident ∉ done.map Conflict.ident := by
  rw [List.map_append, List.nodup_append] at h
  exact fun hmem => h.2.2 _ hmem _ List.mem_cons_self rfl

/-- Conflicts with identifiers of their own are settled or handed over, if each is by itself. -/
theorem resolveAll_yields {conflicts : List Conflict} (sound : b.Sound conflicts)
    (h : ∀ x ∈ rs, x.ComesFrom user)
    (hnodup : ((conflicts ++ rs.map Resolution.conflict).map Conflict.ident).Nodup) :
    ∃ b', (resolveAll .bundled user (rs.map Resolution.conflict)).Yields b (.ok ()) b' := by
  induction rs generalizing b conflicts with
  | nil => exact ⟨b, yields_pure () b⟩
  | cons x rs ih =>
      obtain ⟨b₁, hone⟩ := resolveOne_yields (h x List.mem_cons_self)
        (sound.takes (ident_not_mem_of_nodup hnodup))
      obtain ⟨b', hall⟩ := ih (sound.resolveOne hone) (fun y hy => h y (List.mem_cons_of_mem x hy))
        (by simpa using hnodup)
      exact ⟨b', hone.bind hall⟩

end Resolution

/-! ## One batch -/

section MergeAll

variable {s s' : Session} {conflicts : List Conflict} {rs : List Resolution} {name : Option Text}

/-- A batch is merged by settling its conflicts and handing the list over. -/
theorem mergeAll_yields_ok_iff {b : Batch} :
    (mergeAll conflicts).Yields (s, {}) (.ok name) (s', b) ↔
      s.closed = false ∧ s.attached = true ∧ ∃ b₀ l,
        (resolveAll s.registry s.user conflicts).Yields {} (.ok ()) b₀
          ∧ ChangeList.flush.Yields (s, b₀.changes) (.ok name) (s', l)
          ∧ b = { b₀ with changes := l } := by
  rw [mergeAll_yields_iff]
  constructor
  · rintro (_ | _ | _ | _ | ⟨hopen, hattached, hall, hflush⟩)
    exact ⟨hopen, hattached, _, _, hall, hflush, rfl⟩
  · rintro ⟨hopen, hattached, b₀, l, hall, hflush, rfl⟩
    exact .written hopen hattached hall hflush

variable (hreg : s.registry = .bundled) (w : s.disk.WellFormed) (hfree : s.NamesFree)
include hreg w hfree

/-- Conflicts that are merged are settled or handed over each by itself, and the changes of those that
are settled are applied. -/
theorem applied_of_mergeAll {b : Batch} (h : (mergeAll conflicts).Yields (s, {}) (.ok name) (s', b)) :
    s.closed = false ∧ s.attached = true ∧ b.resolutions.map Resolution.conflict = conflicts
      ∧ (∀ x ∈ b.resolutions, x.ComesFrom s.user)
      ∧ Admits (b.resolutions.filterMap Resolution.change?) s.disk
      ∧ Applied (b.resolutions.filterMap Resolution.change?) s.disk s'.disk := by
  obtain ⟨hclosed, hattached, b₀, l, hall, hflush, rfl⟩ := mergeAll_yields_ok_iff.1 h
  rw [hreg] at hall
  have sound : b₀.Sound conflicts := sound_empty.resolveAll hall
  have hfrom : ∀ x ∈ b₀.resolutions, x.ComesFrom s.user := comesFrom_resolveAll (by simp) hall
  have hadmits := admits_of_flush w sound.pending sound.proper sound.kept hflush
  obtain ⟨_, d, n, hflush', happlied, -⟩ :=
    flush_applied w sound.pending sound.proper hfree hadmits
  obtain ⟨rfl, rfl⟩ := Prod.mk.inj (hflush.unique hflush').2
  rw [sound.changes] at hadmits happlied
  exact ⟨hclosed, hattached, sound.conflicts, hfrom, hadmits, happlied⟩

/-- Conflicts of which each can be settled or handed over are merged, if the repository admits the
changes of those that are settled. -/
theorem mergeAll_yields_applied (hclosed : s.closed = false) (hattached : s.attached = true)
    (hrs : ∀ x ∈ rs, x.ComesFrom s.user) (hnodup : (rs.map fun x => x.conflict.ident).Nodup)
    (ha : Admits (rs.filterMap Resolution.change?) s.disk) :
    ∃ name b d n, (mergeAll (rs.map Resolution.conflict)).Yields (s, {}) (.ok name)
        ({ s with disk := d, nextBatch := n }, b)
      ∧ b.resolutions = rs ∧ Applied (rs.filterMap Resolution.change?) s.disk d ∧ s.nextBatch ≤ n := by
  have hidents : (([] ++ rs.map Resolution.conflict).map Conflict.ident).Nodup := by
    simpa [Function.comp_def] using hnodup
  obtain ⟨b, hall⟩ := resolveAll_yields sound_empty hrs hidents
  have sound : b.Sound (rs.map Resolution.conflict) := sound_empty.resolveAll hall
  have hresolutions : b.resolutions = rs :=
    eq_of_map_conflict (comesFrom_resolveAll (b := {}) (by simp) hall) hrs sound.conflicts
  have hchanges := sound.changes
  rw [hresolutions] at hchanges
  rw [← hchanges] at ha
  obtain ⟨name, d, n, hflush, happlied, hn⟩ :=
    flush_applied w sound.pending sound.proper hfree ha
  rw [hchanges] at happlied
  refine ⟨name, { b with changes := { b.changes with flushed := true } }, d, n, ?_, hresolutions,
    happlied, hn⟩
  exact mergeAll_yields_ok_iff.2 ⟨hclosed, hattached, b, _, by rw [hreg]; exact hall, hflush, rfl⟩

/-! ## Several batches -/

/-- **Pieces.** By induction over the pieces, conflicts of which each can be settled or handed over are
merged piece by piece. -/
theorem mergeEach_yields_applied (hclosed : s.closed = false) (hattached : s.attached = true)
    {pieces : List (List Conflict)} (hpieces : rs.map Resolution.conflict = pieces.flatten)
    (hrs : ∀ x ∈ rs, x.ComesFrom s.user) (hnodup : (rs.map fun x => x.conflict.ident).Nodup)
    (ha : Admits (rs.filterMap Resolution.change?) s.disk) :
    ∃ bs s', (mergeEach pieces).Yields s (.ok bs) s'
      ∧ bs.map (fun b => b.resolutions.map Resolution.conflict) = pieces
      ∧ bs.flatMap Batch.resolutions = rs
      ∧ Applied (rs.filterMap Resolution.change?) s.disk s'.disk := by
  induction pieces generalizing s rs with
  | nil =>
      obtain rfl : rs = [] := by simpa using hpieces
      exact ⟨[], s, yields_pure _ _, rfl, rfl, Repository.applied_nil w⟩
  | cons piece pieces ih =>
      rw [List.flatten_cons, List.map_eq_append_iff] at hpieces
      obtain ⟨first, rest, rfl, rfl, hrest⟩ := hpieces
      have hproper := (sound_of_comesFrom hrs hnodup).proper
      rw [List.filterMap_append] at hproper ha
      rw [List.map_append, List.nodup_append] at hnodup
      have hfirst : ∀ x ∈ first, x.ComesFrom s.user := fun x hx => hrs x (List.mem_append_left _ hx)
      have hadmits : Admits (first.filterMap Resolution.change?) s.disk :=
        ⟨fun c hc => ha.clear c (List.mem_append_left _ hc),
          fun hne => ha.noFile fun hnil => hne (List.append_eq_nil_iff.1 hnil).1⟩
      obtain ⟨name, b, d, n, hmerge, hb, happlied, hn⟩ :=
        mergeAll_yields_applied hreg w hfree hclosed hattached hfirst hnodup.1 hadmits
      obtain ⟨bs, s', hmergeRest, hbs, hresolutions, hall⟩ :=
        ih (s := { s with disk := d, nextBatch := n }) hreg happlied.wellFormed
          (hfree.applied happlied hn) hclosed hattached hrest
          (fun x hx => hrs x (List.mem_append_right _ hx)) hnodup.2.1
          (happlied.admits hproper.nodup
            (fun c hc => hproper.valid c (List.mem_append_right _ hc)) ha)
      refine ⟨b :: bs, s', ?_, by rw [List.map_cons, hbs, hb], ?_, ?_⟩
      · exact hmerge.withLocal.bind (hmergeRest.bind (yields_pure _ _))
      · rw [List.flatMap_cons, hb, hresolutions]
      · rw [List.filterMap_append]
        exact happlied.append hproper.nodup hall

end MergeAll

/-- **Splitting and reordering.** Conflicts that can be merged as one batch can be merged in any order
and in any pieces.  Of each conflict the batches of the pieces say what the one batch says, and the
disks are the same in the end. -/
theorem mergeEach_of_mergeAll {s s₁ : Session} {conflicts : List Conflict}
    {pieces : List (List Conflict)} {name : Option Text} {b : Batch} (hreg : s.registry = .bundled)
    (w : s.disk.WellFormed) (hfree : s.NamesFree) (hnodup : (conflicts.map Conflict.ident).Nodup)
    (h : (mergeAll conflicts).Yields (s, {}) (.ok name) (s₁, b))
    (hpieces : pieces.flatten.Perm conflicts) :
    ∃ bs s₂, (mergeEach pieces).Yields s (.ok bs) s₂
      ∧ bs.map (fun b => b.resolutions.map Resolution.conflict) = pieces
      ∧ (bs.flatMap Batch.resolutions).Perm b.resolutions
      ∧ ∀ p, s₂.disk.node? p = s₁.disk.node? p := by
  obtain ⟨hclosed, hattached, hconflicts, hfrom, hadmits, happlied⟩ := applied_of_mergeAll hreg w hfree h
  obtain ⟨rs, hrs, hperm⟩ : ∃ rs : List Resolution, rs.map Resolution.conflict = pieces.flatten
      ∧ rs.Perm b.resolutions := by
    have hall : List.Forall₂ (fun c x => c = Resolution.conflict x) conflicts b.resolutions :=
      List.forall₂_map_right_iff.1 (by rw [List.forall₂_eq_eq_eq, hconflicts])
    obtain ⟨rs, hrs, hperm⟩ := List.perm_comp_forall₂ hpieces hall
    rw [← List.forall₂_map_right_iff (R := Eq), List.forall₂_eq_eq_eq] at hrs
    exact ⟨rs, hrs.symm, hperm⟩
  have hidents : (rs.map fun x => x.conflict.ident).Nodup := by
    have hmap : (rs.map fun x => x.conflict.ident) = pieces.flatten.map Conflict.ident := by
      rw [← hrs, List.map_map]; rfl
    rw [hmap]
    exact (hpieces.map Conflict.ident).nodup_iff.2 hnodup
  have hchanges := hperm.filterMap Resolution.change?
  obtain ⟨bs, s₂, hmerge, hbs, hresolutions, happlied'⟩ := mergeEach_yields_applied hreg w hfree
    hclosed hattached hrs (fun x hx => hfrom x (hperm.mem_iff.1 hx)) hidents (hadmits.perm hchanges.symm)
  refine ⟨bs, s₂, hmerge, hbs, hresolutions ▸ hperm, ?_⟩
  exact (happlied'.perm hchanges).node?_eq happlied

/-! ## Sessions that can write -/

/-- A session that can write records: it is open, its user has no lone surrogates, and nothing is in
the way of record files and of batches. -/
structure Writable (s : Session) : Prop where
  registry : s.registry = .bundled
  opened : s.closed = false
  attached : s.attached = true
  user : ∀ u ∈ s.user, u.Plain
  wellFormed : s.disk.WellFormed
  namesFree : s.NamesFree
  noDirectory : ∀ kind ident, Valid kind ident → s.disk.node? [file kind ident] ≠ some .directory
  noFile : ∀ bytes, s.disk.node? Repository.pending ≠ some (.file bytes)

/-- Such a session merges conflicts of which each can be settled or handed over, if their records have
names that files can have. -/
theorem Writable.mergeAll_yields {s : Session} (hs : Writable s) {rs : List Resolution}
    (hrs : ∀ x ∈ rs, x.ComesFrom s.user) (hnodup : (rs.map fun x => x.conflict.ident).Nodup)
    (hnames : ∀ x ∈ rs, x.conflict.Storable) :
    ∃ name b d n, (mergeAll (rs.map Resolution.conflict)).Yields (s, {}) (.ok name)
        ({ s with disk := d, nextBatch := n }, b) ∧ b.resolutions = rs := by
  have hstorable := (sound_of_comesFrom hrs hnodup).storable fun x hx => hnames x (List.mem_of_mem_filter hx)
  have hadmits := Repository.admits_of_noDirectory hs.noDirectory hs.noFile hstorable.valid hstorable.fits
  obtain ⟨name, b, d, n, hmerge, hb, -⟩ := mergeAll_yields_applied hs.registry hs.wellFormed hs.namesFree
    hs.opened hs.attached hrs hnodup hadmits
  exact ⟨name, b, d, n, hmerge, hb⟩

theorem writable_oneRecord : Writable (.starting Repository.oneRecord) := by
  have hnode := Disk.node?_put (p := [file "simple" "a"]) (by simp) (.file [1]) {}
  refine ⟨rfl, rfl, rfl, nofun, ⟨by decide, by decide, by decide⟩, fun n _ => ?_, fun _ _ => ?_, ?_⟩
  · exact (hnode _).trans (if_neg (by simp [Repository.batchPath]))
  · exact Repository.represents_oneRecord.noDirectory
  · intro bytes hn
    cases ((hnode _).trans (if_neg (by decide))).symm.trans hn

/-! ## Two tasks and a stranger -/

/-- A conflict whose sides do not belong to it. -/
def strangeConflict : Conflict :=
  { createdConflict "ann" "bob" with ident := "b", named := ⟨"task-@b.json", rfl⟩ }

/-- A conflict that is settled, and one that is handed over. -/
def twoConflicts : List Conflict := [createdConflict "ann" "bob", strangeConflict]

theorem storable_twoConflicts : ∀ c ∈ twoConflicts, c.Storable := by decide +kernel

/-- What becomes of them. -/
def twoResolutions (i : Item) (e : Escalation) : List Resolution :=
  [⟨createdConflict "ann" "bob", .fieldUnion true, .ok i⟩, ⟨strangeConflict, .fieldUnion true, .error e⟩]

theorem comesFrom_twoConflicts : ∃ i e, ∀ x ∈ twoResolutions i e, x.ComesFrom none := by
  obtain ⟨i, hi⟩ := (creates_ann.settles_iff creates_bob).2 (Text.plain_ofString "ann")
  have hsettled := yields_run (resolve .bundled none (.fieldUnion true) (createdConflict "ann" "bob")) {}
  rw [hi] at hsettled
  obtain ⟨e, hstrange⟩ : ∃ e, (settlement none (.fieldUnion true) strangeConflict).Yields ()
      (.error (.unresolvable e)) () := by
    have hread := creates_ann.matching creates_bob
    have hside : (checkSide strangeConflict (createdTask "ann")).Yields () (.error
        (strangeConflict.escalation (.foreignSide Kind.task.name "a") ["kind", "ident"])) () :=
      ⟨rfl, rfl⟩
    unfold settlement
    exact ⟨_, hread.readOurs.bind (hread.readTheirs.bind (hread.readAncestor.bind hside.bind_error))⟩
  refine ⟨i, e, List.forall_mem_cons.2 ⟨?_, List.forall_mem_singleton.2 ?_⟩⟩
  · exact ⟨_, {}, _, Registry.get_bundled_task, rfl, hsettled⟩
  · exact ⟨_, {}, _, Registry.get_bundled_task, rfl, resolve_yields_error hstrange⟩

theorem Writable.mergeAll_twoConflicts {s : Session} (hs : Writable s) (huser : s.user = none) :
    ∃ name s₁ b i e, (mergeAll twoConflicts).Yields (s, {}) (.ok name) (s₁, b)
      ∧ b.resolutions = twoResolutions i e := by
  obtain ⟨i, e, hrs⟩ := comesFrom_twoConflicts
  rw [← huser] at hrs
  have hidents : ((twoResolutions i e).map fun x => x.conflict.ident).Nodup :=
    (by decide : (twoConflicts.map Conflict.ident).Nodup)
  obtain ⟨name, b, d, n, hmerge, hb⟩ := hs.mergeAll_yields hrs hidents
    fun x hx => storable_twoConflicts _ (List.mem_map_of_mem (f := Resolution.conflict) hx)
  exact ⟨name, _, b, i, e, hmerge, hb⟩

/-- The two conflicts are merged together, and each for itself, the second one first. -/
theorem mergeEach_of_mergeAll_twoConflicts : ∃ name s₁ b bs s₂,
    (mergeAll twoConflicts).Yields (.starting Repository.oneRecord, {}) (.ok name) (s₁, b)
      ∧ b.resolutions.map Resolution.state = [.resolved, .escalated]
      ∧ (mergeEach [[strangeConflict], [createdConflict "ann" "bob"]]).Yields
        (.starting Repository.oneRecord) (.ok bs) s₂
      ∧ (bs.flatMap Batch.resolutions).Perm b.resolutions
      ∧ ∀ p, s₂.disk.node? p = s₁.disk.node? p := by
  have hs := writable_oneRecord
  obtain ⟨name, s₁, b, i, e, hmerge, hb⟩ := hs.mergeAll_twoConflicts rfl
  have hpieces : [[strangeConflict], [createdConflict "ann" "bob"]].flatten.Perm twoConflicts :=
    List.Perm.swap _ _ _
  obtain ⟨bs, s₂, heach, -, hperm, hsame⟩ :=
    mergeEach_of_mergeAll hs.registry hs.wellFormed hs.namesFree (by decide) hmerge hpieces
  exact ⟨name, s₁, b, bs, s₂, hmerge, hb ▸ rfl, heach, hperm, hsame⟩

end Merge

end RecordStore
