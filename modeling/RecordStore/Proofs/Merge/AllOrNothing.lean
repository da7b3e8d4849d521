import RecordStore.Proofs.Merge.Total

/-!
# RecordStore.Proofs.Merge.AllOrNothing

A batch of conflicts is merged as a whole, or nothing is written (`mergeAll_all_or_nothing`).  The name
of a record is the exception: it is looked at when the batch is committed already, so that a batch with
a name that no file can have fails and stays.
-/

namespace RecordStore

open Procedure

namespace Merge

open Repository (Tidy appliedAll_of_not_mem record?)

variable {s : Session}

/-- **Merging is all or nothing.** A batch that fails leaves every file as it is, unless it settles a
conflict about a record whose name is one that no file can have.  Otherwise there is one resolution for
each conflict, in their order: it hands the conflict over as it is, or stores the merged item, which is
read back from its record; and no other record changes. -/
theorem mergeAll_all_or_nothing (hreg : s.registry = .bundled) (w : s.disk.WellFormed)
    (t : Tidy s.disk) (conflicts : List Conflict) :
    let o := run (mergeAll conflicts) (s, {})
    let after := o.state.1.disk
    let b := o.state.2
    match o.result with
    | .error _ => after = s.disk
      ∨ ∃ r ∈ b.resolved, r.conflict ∈ conflicts ∧ ¬ r.conflict.Storable
    | .ok batch => b.resolutions.map Resolution.conflict = conflicts
      ∧ (∀ r ∈ b.resolutions, match r.outcome with
        | .ok i => ∃ blob, i.bytes = .ok blob ∧ Repository.read r.conflict.ident after = .ok (some blob)
          ∧ (run (Registry.decodeItem blob s.registry) ()).result = .ok i
        | .error e => e.ident = r.conflict.ident ∧ e.ours = r.conflict.ours
          ∧ e.theirs = r.conflict.theirs ∧ e.ancestor = r.conflict.ancestor)
      ∧ (batch = none ↔ b.resolved = [])
      ∧ ∀ ident, ident ∉ b.resolved.map (fun r => r.conflict.ident) →
        record? after ident = record? s.disk ident := by
  intro o after b
  have w : Repository.Settled (fun _ _ => True) (record? s.disk) s.disk :=
    ⟨w, t.represents, fun _ _ _ => trivial⟩
  rcases mergeAll_yields hreg w (yields_run (mergeAll conflicts) (s, {})) with
    ⟨f, hr, hst⟩ | ⟨f, hr, hname⟩ | ⟨b₀, batch, d, n, sound, hr, hst, w', -, hnone⟩
  · have hdisk : after = s.disk := by
      rcases hst with hst | hst <;> simp only [after, o, hst, Session.named]
    simp only [o, hr]
    exact .inl hdisk
  · simp only [o, hr]
    exact .inr hname
  · have hafter : after = d := by simp only [after, o, hst]
    have hb : b = b₀.finished := by simp only [b, o, hst]
    have hr : o.result = .ok batch := hr
    rw [hr, hafter, hb]
    have hresolved : b₀.finished.resolved = b₀.resolved := rfl
    have hident := sound.map_ident
    refine ⟨sound.conflicts, fun r hmem => ?_, ?_, fun ident hnot => ?_⟩
    · have hsound := sound.resolutions r hmem
      unfold Resolution.Sound at hsound
      cases ho : r.outcome with
      | error e => simpa only [ho] using hsound
      | ok i =>
          obtain ⟨hm, blob, hbytes, hread⟩ := sound.stored w' hmem ho
          have hdecode := hm.regular.decodeItem_bytes hbytes
          rw [← hm.recorded] at hdecode
          exact ⟨blob, hbytes, hread, by rw [hreg]; exact hdecode.1⟩
    · rw [hnone, hresolved, ← List.map_eq_nil_iff (f := Change.ident), hident, List.map_eq_nil_iff]
    · rw [hresolved, ← hident] at hnot
      rw [w'.represents.record?_eq, appliedAll_of_not_mem _ hnot]

/-! ## Several conflicts -/

/-- A conflict of a kind that is not registered. -/
def noteConflict : Conflict := ⟨"note", "c", some [1], some [1], none, "note-@c.json", rfl⟩

/-- A third conflict of such a kind ends a batch of two, of which one is settled then and one handed over. -/
theorem mergeAll_noteConflict {s : Session} (hs : s = .starting Repository.oneRecord) : ∃ s₁ b,
    (mergeAll (twoConflicts ++ [noteConflict])).Yields (s, {})
        (.error (.configuration (.unregistered "note"))) (s₁, b)
      ∧ b.resolutions.map Resolution.state = [.resolved, .escalated] := by
  obtain ⟨i, e, hrs⟩ := comesFrom_twoConflicts
  have hidents : (twoConflicts.map Conflict.ident).Nodup := by decide
  obtain ⟨b, hall⟩ := resolveAll_yields sound_empty hrs hidents
  have sound : b.Sound twoConflicts := sound_empty.resolveAll hall
  have hb : b.resolutions = twoResolutions i e :=
    eq_of_map_conflict (comesFrom_resolveAll (b := {}) (by simp) hall) hrs sound.conflicts
  have hnote : (resolveAll .bundled none [noteConflict]).Yields b
      (.error (.configuration (.unregistered "note"))) b :=
    (Taken.unregistered rfl).yields.bind_error
  have hboth : (resolveAll s.registry s.user (twoConflicts ++ [noteConflict])).Yields {}
      (.error (.configuration (.unregistered "note"))) b := by
    rw [hs]
    exact resolveAll_append_yields hall hnote
  exact ⟨s, b, (Ends.unsettled (hs ▸ rfl) hboth).yields, hb ▸ rfl⟩

/-- A conflict that is settled and one that is handed over are merged: the first has its record, and the
other none.  With a third one, of a kind that is not registered, the batch fails and nothing is written. -/
theorem mergeAll_all_or_nothing_several :
    (∃ name s₁ b blob, (mergeAll twoConflicts).Yields (.starting Repository.oneRecord, {})
        (.ok (some name)) (s₁, b)
      ∧ b.resolutions.map Resolution.state = [.resolved, .escalated]
      ∧ Repository.read "a" s₁.disk = .ok (some blob)
      ∧ (run (Registry.decodeItem blob .bundled) ()).result.isOk = true
      ∧ record? s₁.disk "b" = record? Repository.oneRecord "b")
    ∧ ∃ s₁ b, (mergeAll (twoConflicts ++ [noteConflict])).Yields (.starting Repository.oneRecord, {})
        (.error (.configuration (.unregistered "note"))) (s₁, b)
      ∧ b.resolutions.map Resolution.state = [.resolved, .escalated]
      ∧ s₁.disk = Repository.oneRecord := by
  obtain ⟨s, hs⟩ : ∃ s, s = Session.starting Repository.oneRecord := ⟨_, rfl⟩
  have hreg : s.registry = .bundled := hs ▸ rfl
  have w : s.disk.WellFormed := hs ▸ writable_oneRecord.wellFormed
  have t : Tidy s.disk := hs ▸ Repository.represents_oneRecord.tidy
  have hdisk : s.disk = Repository.oneRecord := hs ▸ rfl
  rw [← hs, ← hdisk]
  constructor
  · obtain ⟨name, s₁, b, i, e, hmerge, hb⟩ := writable_oneRecord.mergeAll_twoConflicts rfl
    rw [← hs] at hmerge
    have h := mergeAll_all_or_nothing hreg w t twoConflicts
    simp only [hmerge.1, hmerge.2] at h
    obtain ⟨-, hresolutions, hnone, hother⟩ := h
    have hresolved : b.resolved = [⟨createdConflict "ann" "bob", .fieldUnion true, .ok i⟩] := by
      rw [Batch.resolved, hb]
      rfl
    obtain ⟨blob, -, hread, hdecode⟩ := hresolutions ⟨createdConflict "ann" "bob", .fieldUnion true, .ok i⟩
      (hb ▸ List.mem_cons_self)
    cases name with
    | none => simp [hresolved] at hnone
    | some name =>
        refine ⟨name, s₁, b, blob, hmerge, hb ▸ rfl, hread, ?_, hother "b" ?_⟩
        · exact congrArg Except.isOk (hreg ▸ hdecode)
        · simp only [hresolved, List.map_cons, List.map_nil, List.mem_singleton]
          decide
  · obtain ⟨s₁, b, hmerge, hstates⟩ := mergeAll_noteConflict hs
    have h := mergeAll_all_or_nothing hreg w t (twoConflicts ++ [noteConflict])
    simp only [hmerge.1, hmerge.2] at h
    have hstorable : ∀ c ∈ twoConflicts ++ [noteConflict], c.Storable := by decide +kernel
    refine ⟨s₁, b, hmerge, hstates, h.resolve_right ?_⟩
    rintro ⟨r, -, hr, hname⟩
    exact hname (hstorable _ hr)

/-! ## A null in a name -/

/-- A conflict that is settled, about a record with a null in its name, leaves a batch behind, at which
every later opening fails. -/
theorem mergeAll_null {m : Repository.Contents} (hreg : s.registry = .bundled) (hopen : s.closed = false)
    (hattached : s.attached = true) (r : Repository.AtRest m s.disk) {x : Resolution}
    {i : Item} (hx : x.ComesFrom s.user) (ho : x.outcome = .ok i)
    (hnull : Path.onDisk (RecordName.file x.conflict.kind x.conflict.ident) = .error .null) :
    ∃ s₁ b, (mergeAll [x.conflict]).Yields (s, {}) (.error (.change .nullInName)) (s₁, b)
      ∧ s₁.disk.node? (Repository.batchPath (batchName s.nextBatch)) = some .directory
      ∧ Repository.recover.Yields s₁.disk (.error (.change .nullInName)) s₁.disk := by
  have hrs : ∀ y ∈ [x], y.ComesFrom s.user := List.forall_mem_singleton.2 hx
  obtain ⟨b, hall⟩ := resolveAll_yields sound_empty hrs (by simp)
  have sound : b.Sound [x.conflict] := sound_empty.resolveAll hall
  have hb : b.resolutions = [x] :=
    eq_of_map_conflict (comesFrom_resolveAll (b := {}) (by simp) hall) hrs sound.conflicts
  obtain ⟨blob, hchanges⟩ : ∃ blob,
      b.changes.changes = [.update x.conflict.kind x.conflict.ident blob] := by
    have hsound := hx.sound
    rw [Resolution.Sound, ho] at hsound
    obtain ⟨-, blob, hblob⟩ := hsound
    exact ⟨blob, by simp [sound.changes, hb, Resolution.change?, ho, hblob, Except.toOption]⟩
  have hunpaired := sound.proper.unpaired
  rw [hchanges] at hunpaired
  obtain ⟨d, happly, hbatch, hrecover⟩ :=
    r.apply_null (unpaired_batchName s.nextBatch) hunpaired rfl hnull
  rw [← hchanges] at happly
  have hflush := flush_yields sound.pending (by simp [hchanges]) happly
  rw [← hreg] at hall
  exact ⟨_, b, (Ends.unwritten hopen hattached hall hflush).yields, hbatch, hrecover⟩

/-- A conflict of two equal pages with a null in their identifier. -/
def nullConflict : Conflict :=
  ⟨Kind.page.name, "a\x00b", some (pageRecord "a\\u0000b" "t"), some (pageRecord "a\\u0000b" "t"), none,
    "simple-@a\x00b.json", rfl⟩

theorem comesFrom_nullConflict :
    ∃ (x : Resolution) (i : Item), x.conflict = nullConflict ∧ x.ComesFrom none ∧ x.outcome = .ok i := by
  have hsides : Sides nullConflict (unwrittenPage "a\x00b" "t") (unwrittenPage "a\x00b" "t") none :=
    ⟨⟨decodeItem_nullPage, decodeItem_nullPage, yields_pure _ _, ⟨rfl, rfl⟩, ⟨rfl, rfl⟩, by simp⟩, rfl⟩
  have hclean : (unwrittenPage "a\x00b" "t").Clean := clean_unwrittenPage (Text.plain_ofString "t")
  have huser : ∀ u ∈ (none : Option Text), u.Plain := nofun
  obtain ⟨x, hx, hfrom⟩ := hsides.exists_resolution rfl hclean hclean huser rfl
    (by decide +kernel)
  obtain ⟨i, hi⟩ := hfrom.settled_page (hx ▸ rfl) (hx ▸ hsides) (hsides.oneKind.contestedFields_eq_nil rfl)
  exact ⟨x, i, hx, hfrom, hi⟩

theorem mergeAll_nullConflict : ∃ s₁ b, (mergeAll [nullConflict]).Yields (.starting {}, {})
      (.error (.change .nullInName)) (s₁, b)
    ∧ s₁.disk.node? (Repository.batchPath (batchName 0)) = some .directory
    ∧ Repository.recover.Yields s₁.disk (.error (.change .nullInName)) s₁.disk := by
  obtain ⟨x, i, hx, hfrom, hi⟩ := comesFrom_nullConflict
  have hnull : Path.onDisk (RecordName.file x.conflict.kind x.conflict.ident) = .error .null := by
    rw [hx]
    decide +kernel
  rw [← hx]
  exact mergeAll_null (s := .starting {}) rfl rfl rfl Repository.atRest_empty hfrom hi hnull

/-- The conflict is settled, and merging fails; but the repository, which was empty, holds a batch then,
and cannot be opened any more. -/
theorem mergeAll_all_or_nothing_null : Disk.WellFormed {} ∧ Tidy {} ∧ ∃ s₁ b,
    (mergeAll [nullConflict]).Yields (.starting {}, {}) (.error (.change .nullInName)) (s₁, b)
      ∧ s₁.disk ≠ (Session.starting {}).disk
      ∧ (run Repository.recover s₁.disk).result = .error (.change .nullInName) := by
  obtain ⟨s₁, b, hmerge, hbatch, hrecover⟩ := mergeAll_nullConflict
  refine ⟨Disk.wellFormed_empty, Repository.tidy_empty, s₁, b, hmerge, fun hdisk => ?_, hrecover.1⟩
  rw [hdisk] at hbatch
  exact Repository.noBatch_empty _ hbatch

end Merge

end RecordStore
