import RecordStore.Proofs.Repository.Crash
import RecordStore.Proofs.Repository.Effect

/-!
# RecordStore.Proofs.Repository.KindChange

A batch that stores a record under another kind than before moves the new file into place and then
takes the old one away.  Between these two steps the record has two files.  When the batch is cut
there, the replay that finishes it looks for the record's file once more, and it finds the one whose
name comes first: the old one, and takes it away, or the new one, and the old one is `LeftBehind`.
-/

namespace RecordStore.Repository

open Disk (Program Step)
open Disk.Program (Stops)
open RecordName (Valid file)

/-- The file of a kind stands beside the new file of its record, and its name comes later. -/
structure LeftBehind (c : Change) (kind : Text) (d : Disk) : Prop where
  stored : c.data? ≠ none
  other : kind ≠ c.kind
  new : d.holds [file c.kind c.ident] = true
  old : d.holds [file kind c.ident] = true
  later : (file c.kind c.ident).ble (file kind c.ident) = true

instance (c : Change) (kind : Text) (d : Disk) : Decidable (LeftBehind c kind d) :=
  decidable_of_iff (c.data? ≠ none ∧ kind ≠ c.kind ∧ d.holds [file c.kind c.ident] = true
      ∧ d.holds [file kind c.ident] = true
      ∧ (file c.kind c.ident).ble (file kind c.ident) = true)
    ⟨fun ⟨h₁, h₂, h₃, h₄, h₅⟩ => ⟨h₁, h₂, h₃, h₄, h₅⟩,
      fun ⟨h₁, h₂, h₃, h₄, h₅⟩ => ⟨h₁, h₂, h₃, h₄, h₅⟩⟩

section Leaves

variable {c : Change} {d : Disk} {k : Text}

/-- Of an identifier that has a record file, the one is found whose name comes first. -/
theorem exists_first_file {kind ident : Text} (hv : Valid kind ident)
    (h : d.holds [file kind ident] = true) : ∃ f, find? ident d = some f ∧ Valid f.kind ident
      ∧ d.holds [file f.kind ident] = true
      ∧ ∀ k, Valid k ident → d.holds [file k ident] = true →
        (file f.kind ident).ble (file k ident) = true := by
  obtain ⟨f, hfind⟩ : ∃ f, find? ident d = some f :=
    Option.ne_none_iff_exists'.1 fun hnone => by
      rw [Disk.holds, find?_eq_none_iff.1 hnone _ hv] at h
      cases h
  obtain ⟨-, -, hfirst⟩ := find?_eq_some_iff.1 hfind
  obtain ⟨hkind, hname, -, n, hn⟩ := exists_of_find? hfind
  refine ⟨f, hfind, hkind, Disk.holds_iff.2 ⟨n, hname ▸ hn⟩, fun k hk hold => ?_⟩
  rw [← hname]
  exact hfirst ⟨k, ident, file k ident⟩ (mem_recordFiles_iff.2 ⟨hk, rfl, Disk.holds_iff.1 hold⟩) rfl

/-- A change whose staged file is gone takes away the one old file that there is, unless the new one
is found first. -/
theorem leaves_of_two {data : Bytes} (hdata : c.data? = some data) (hc : Valid c.kind c.ident)
    (hnew : d.node? [file c.kind c.ident] = some (.file data))
    (hone : ∀ k k', Valid k c.ident → Valid k' c.ident → k ≠ c.kind → k' ≠ c.kind →
      d.holds [file k c.ident] = true → d.holds [file k' c.ident] = true → k = k')
    (hk : Valid k c.ident) :
    leaves c none d (file k c.ident)
      = if LeftBehind c k d then d.node? [file k c.ident] else recordNode c.stored k := by
  have hholds : d.holds [file c.kind c.ident] = true := Disk.holds_iff.2 ⟨_, hnew⟩
  rw [leaves_file hc hk, recordNode_stored hdata]
  by_cases hkc : k = c.kind
  · subst hkc
    have hleft : ¬ LeftBehind c c.kind d := fun h => h.other rfl
    simp [hleft, hdata, hnew]
  · simp only [hdata, hkc, reduceCtorEq, false_or, ne_eq, not_false_eq_true, and_true, if_false,
      Ne.symm hkc]
    obtain ⟨f, hfind, hv, hn, hle⟩ := exists_first_file hc hholds
    simp only [hfind, Option.map_some, Option.some.injEq]
    by_cases hkf : f.kind = k
    · -- The old file is found, so that its name comes first.
      have hleft : ¬ LeftBehind c k d := by
        intro h
        have heq := Text.ble_antisymm (hkf ▸ hle _ hc hholds) h.later
        exact hkc ((file_eq_iff hk hc).1 heq)
      rw [if_pos hkf, if_neg hleft]
    · rw [if_neg hkf]
      by_cases hold : d.holds [file k c.ident] = true
      · -- There is no third file, so that the new one is found.
        have hfc : f.kind = c.kind := by
          by_contra hne
          exact hkf (hone _ _ hv hk hne hkc hn hold)
        rw [if_pos ⟨by simp [hdata], hkc, hholds, hold, hfc ▸ hle _ hk hold⟩]
      · rw [if_neg fun h => hold h.old]
        rwa [Disk.holds, Option.not_isSome_iff_eq_none] at hold

/-- Where the record of an identifier is one file, none is left behind. -/
theorem not_leftBehind {v? : Option (Text × Bytes)} (hc : Valid c.kind c.ident)
    (h : ∀ k, Valid k c.ident → d.node? [file k c.ident] = recordNode v? k) (hk : Valid k c.ident) :
    ¬ LeftBehind c k d := by
  intro hleft
  have hold := hleft.old
  have hnew := hleft.new
  rw [Disk.holds, h k hk] at hold
  rw [Disk.holds, h _ hc] at hnew
  exact hleft.other (recordNode_unique hold hnew)

/-- A change that is done already leaves its record as it is. -/
theorem leaves_of_done (hc : Valid c.kind c.ident)
    (h : ∀ k, Valid k c.ident → d.node? [file k c.ident] = recordNode c.stored k)
    (hk : Valid k c.ident) : leaves c none d (file k c.ident) = recordNode c.stored k := by
  cases hdata : c.data? with
  | none =>
      have hleaves := leaves_eq_stored hc h hk
      rwa [hdata, Option.map_none] at hleaves
  | some data =>
      have hother : ∀ k, Valid k c.ident → k ≠ c.kind → d.holds [file k c.ident] = false := by
        intro k hk hne
        rw [Disk.holds, h k hk, recordNode_stored hdata, if_neg (Ne.symm hne)]
        rfl
      have hnew : d.node? [file c.kind c.ident] = some (.file data) := by
        rw [h _ hc, recordNode_stored hdata, if_pos rfl]
      rw [leaves_of_two hdata hc hnew ?_ hk, if_neg (not_leftBehind hc h hk)]
      intro k k' hk _ hne _ hholds
      rw [hother k hk hne] at hholds
      cases hholds

end Leaves

/-! ## Cuts within a change -/

section Midway

variable {waiting : Text → Node → Prop} {batch : Text} {changes : List Change} {m : Contents}
  {d d' : Disk} {j : Nat} {c : Change}

/-- What the record files of an identifier are before its change is done. -/
theorem Replaying.node?_later (r : Replaying waiting batch changes m j d) (hp : StorableChanges changes)
    {n : Nat} (hc : changes[n]? = some c) (hn : j ≤ n) {k : Text} (hk : Valid k c.ident) :
    d.node? [file k c.ident] = recordNode (m c.ident) k := by
  rw [r.represents.node?_file hk, hp.appliedAll_take_of_le m hc hn]

/-- What the record files of an identifier are when its change is done. -/
theorem Replaying.node?_earlier (r : Replaying waiting batch changes m j d)
    (hp : StorableChanges changes) {n : Nat} (hc : changes[n]? = some c) (hn : n < j) {k : Text}
    (hk : Valid k c.ident) : d.node? [file k c.ident] = recordNode c.stored k := by
  rw [r.represents.node?_file hk, hp.appliedAll_take_of_lt m hc hn]

/-- A cut within a change comes before its first step, or behind its last, or between the two: then
the staged file is in place, and what is outdated is still there. -/
theorem Interrupted.cases (h : Interrupted waiting batch changes m d') (hp : StorableChanges changes) :
    (∃ j ≤ changes.length, Replaying waiting batch changes m j d')
      ∨ ∃ j c d, changes[j]? = some c ∧ Replaying waiting batch changes m j d
        ∧ d' = settledIn batch j c d := by
  rcases h with h | ⟨j, c, d, complete, hc, r, h⟩
  · exact .inl h
  · have hv := hp.valid c (List.mem_of_getElem? hc)
    have ho := r.offered hc
    have hclear := r.clear hp hc
    have hlen : j < changes.length := (List.getElem?_eq_some_iff.1 hc).1
    have hplace := placing_runs r.directory hv hclear.fits ho hclear.target
    have hdrop := dropFile_runs (exists_file_of_outdated? ho hclear)
    rw [replayProgram_eq_of_fits hclear.fits, Program.stops_looked_iff] at h
    rcases Stops.of_runs_andThen hplace h with h | ⟨more, -, h⟩
    · rcases h.of_runs hplace (length_moveSteps batch j c d) (whole_moveSteps batch j c d)
        with ⟨-, rfl⟩ | ⟨-, rfl⟩
      · exact .inl ⟨j, Nat.le_of_lt hlen, r⟩
      · exact .inr ⟨j, c, d, hc, r, rfl⟩
    · rcases h.of_runs hdrop (length_discardSteps _) (whole_discardSteps _) with ⟨-, rfl⟩ | ⟨-, rfl⟩
      · exact .inr ⟨j, c, d, hc, r, rfl⟩
      · exact .inl ⟨j + 1, hlen, r.replayChange hp hc⟩

/-- What the record files of a change are that is not the one in the midst of which was cut. -/
theorem Replaying.node?_settledIn_ne (r : Replaying waiting batch changes m j d)
    (hp : StorableChanges changes) (hc : changes[j]? = some c) {n : Nat} {c' : Change}
    (hc' : changes[n]? = some c') (hne : n ≠ j) {k : Text} (hk : Valid k c'.ident) :
    (settledIn batch j c d).node? [file k c'.ident] = d.node? [file k c'.ident] := by
  have hident : c'.ident ≠ c.ident := fun h => hne (hp.index_eq hc' hc h)
  rw [node?_settledIn (r.offered hc), if_neg (record_ne_staged _ _ _), if_neg]
  exact singleton_file_ne hk (hp.valid c (List.mem_of_getElem? hc)) (.inl hident)

/-- What a second replay leaves of the record of the change in the midst of which was cut. -/
theorem Replaying.leaves_settledIn_self (r : Replaying waiting batch changes m j d)
    (hp : StorableChanges changes) (hc : changes[j]? = some c) {k : Text} (hk : Valid k c.ident) :
    leaves c none (settledIn batch j c d) (file k c.ident)
      = if LeftBehind c k (settledIn batch j c d) then recordNode (m c.ident) k
        else recordNode c.stored k := by
  have hv := hp.valid c (List.mem_of_getElem? hc)
  have hnode := node?_settledIn (r.offered hc)
  have hstaged := r.staged j c hc
  rw [if_neg (Nat.lt_irrefl j)] at hstaged
  cases hdata : c.data? with
  | none =>
      rw [hdata, Option.map_none] at hstaged
      have hfiles : ∀ k, Valid k c.ident →
          (settledIn batch j c d).node? [file k c.ident] = recordNode (m c.ident) k := by
        intro k hk
        rw [settledIn, hstaged]
        exact r.node?_later hp hc (Nat.le_refl j) hk
      have hleaves := leaves_eq_stored hv hfiles hk
      rw [hdata, Option.map_none] at hleaves
      rw [hleaves, if_neg (not_leftBehind hv hfiles hk)]
  | some data =>
      rw [hdata, Option.map_some] at hstaged
      have hnew : (settledIn batch j c d).node? [file c.kind c.ident] = some (.file data) := by
        rw [hnode, if_neg (record_ne_staged _ _ _), if_pos rfl, hstaged, Option.some_or]
      have hold : ∀ k, Valid k c.ident → k ≠ c.kind →
          (settledIn batch j c d).node? [file k c.ident] = recordNode (m c.ident) k := by
        intro k hk hne
        rw [hnode, if_neg (record_ne_staged _ _ _), if_neg (singleton_file_ne hk hv (.inr hne))]
        exact r.node?_later hp hc (Nat.le_refl j) hk
      rw [leaves_of_two hdata hv hnew ?_ hk]
      · by_cases hleft : LeftBehind c k (settledIn batch j c d)
        · rw [if_pos hleft, if_pos hleft, hold k hk hleft.other]
        · rw [if_neg hleft, if_neg hleft]
      · intro k k' hk hk' hne hne' hholds hholds'
        rw [Disk.holds, hold k hk hne] at hholds
        rw [Disk.holds, hold k' hk' hne'] at hholds'
        exact recordNode_unique hholds hholds'

/-- What a second replay leaves of the record of each change. -/
theorem Replaying.leaves_settledIn (r : Replaying waiting batch changes m j d)
    (hp : StorableChanges changes) (hc : changes[j]? = some c) {n : Nat} {c' : Change}
    (hc' : changes[n]? = some c') {k : Text} (hk : Valid k c'.ident) :
    leaves c' ((settledIn batch j c d).node? (stagedPath batch n)) (settledIn batch j c d)
        (file k c'.ident)
      = if LeftBehind c' k (settledIn batch j c d) then recordNode (m c'.ident) k
        else recordNode c'.stored k := by
  have hv := hp.valid c' (List.mem_of_getElem? hc')
  rw [node?_settledIn (r.offered hc)]
  by_cases hn : n = j
  · subst hn
    obtain rfl : c' = c := Option.some.inj (hc'.symm.trans hc)
    rw [if_pos rfl]
    exact r.leaves_settledIn_self hp hc hk
  · have hsame := fun k hk => r.node?_settledIn_ne hp hc hc' hn (k := k) hk
    rw [if_neg fun h => hn (stagedPath_inj h), if_neg (record_ne_staged _ _ _).symm,
      r.staged n c' hc']
    by_cases hlt : n < j
    · have hfiles := fun k hk => (hsame k hk).trans (r.node?_earlier hp hc' hlt hk)
      rw [if_pos hlt, leaves_of_done hv hfiles hk, if_neg (not_leftBehind hv hfiles hk)]
    · have hfiles := fun k hk => (hsame k hk).trans (r.node?_later hp hc' (Nat.le_of_not_lt hlt) hk)
      rw [if_neg hlt, leaves_eq_stored hv hfiles hk, if_neg (not_leftBehind hv hfiles hk)]

theorem Replaying.node?_settledIn_manifest (r : Replaying waiting batch changes m j d)
    (hc : changes[j]? = some c) :
    (settledIn batch j c d).node? (manifestPath batch) = d.node? (manifestPath batch) := by
  rw [node?_settledIn (r.offered hc), if_neg (manifestPath_ne_stagedPath batch j),
    if_neg (by simp [manifestPath, batchPath])]

theorem Replaying.ready_settledIn (r : Replaying waiting batch changes m j d)
    (hp : StorableChanges changes) (hc : changes[j]? = some c) :
    Ready batch 0 changes (settledIn batch j c d) ∧ AllClear batch 0 changes (settledIn batch j c d)
    := by
  have hv := hp.valid c (List.mem_of_getElem? hc)
  have ho := r.offered hc
  have hnode := node?_settledIn ho
  have hdirectory : ∀ {k i}, Valid k i →
      (settledIn batch j c d).node? [file k i] ≠ some .directory := by
    intro k i hk
    rw [hnode, if_neg (record_ne_staged _ _ _)]
    have hold := r.represents.noDirectory hk
    split
    · rcases ho.eq_none_or with hs | ⟨data, -, hs⟩
      · rwa [hs, Option.none_or]
      · rw [hs, Option.some_or]
        simp
    · exact hold
  refine ⟨⟨wellFormed_settledIn r.wellFormed fun _ => r.represents.noDirectory hv, ?_, ?_⟩, ?_⟩
  · rw [hnode, if_neg (by simp [stagedPath]), if_neg (by simp [batchPath])]
    exact r.directory
  · intro i c' hc'
    rw [Nat.zero_add, hnode, if_neg (record_ne_staged _ _ _).symm]
    split
    · exact .inl rfl
    · exact r.offered hc'
  · intro i c' hc'
    exact clear_of_noDirectory hdirectory (hp.valid c' (List.mem_of_getElem? hc'))
      (hp.fits c' (List.mem_of_getElem? hc')) _

end Midway

/-! ## Opening again -/

/-- A repository that was opened again after a batch was cut: the changes of the batch are done, but
for files that are left behind. -/
structure Reopened (changes : List Change) (m : Contents) (cut d : Disk) : Prop where
  noBatch : ∀ name, d.node? (batchPath name) ≠ some .directory
  changed : ∀ c ∈ changes, ∀ k, Valid k c.ident → d.node? [file k c.ident]
    = if LeftBehind c k cut then recordNode (m c.ident) k else recordNode c.stored k
  unchanged : ∀ k i, Valid k i → i ∉ changes.map Change.ident →
    d.node? [file k i] = recordNode (m i) k

section Opening

variable {batch : Text} {changes : List Change} {m m' : Contents} {d d' cut : Disk} {j : Nat}
  {c : Change}

theorem Settled.reopened (s : Settled onlyFiles (appliedAll m changes) d) (hp : StorableChanges changes)
    (hcut : Represents cut m') : Reopened changes m cut d where
  noBatch := fun name hdir => not_onlyFiles name (s.others name _ hdir)
  changed := by
    intro c hc k hk
    rw [if_neg (not_leftBehind (hp.valid c hc) (fun k hk => hcut.node?_file hk) hk),
      s.represents.node?_file hk, appliedAll_of_mem m hc hp.nodup]
  unchanged := by
    intro k i hk hi
    rw [s.represents.node?_file hk, appliedAll_of_not_mem m hi]

/-- A cut in the midst of a change does nothing to the directories of batches. -/
theorem Replaying.node?_settledIn_batchPath (r : Replaying onlyFiles batch changes m j d)
    (hc : changes[j]? = some c) (name : Text) :
    (settledIn batch j c d).node? (batchPath name) = d.node? (batchPath name) := by
  rw [node?_settledIn (r.offered hc), if_neg (by simp [stagedPath, batchPath]),
    if_neg (by simp [batchPath])]

/-- A second replay whose directory is gone leaves a repository that was opened again. -/
theorem Replaying.reopened_carried (r : Replaying onlyFiles batch changes m j d)
    (hp : StorableChanges changes) (hc : changes[j]? = some c)
    (h : Carried batch 0 changes (settledIn batch j c d) d') :
    Reopened changes m (settledIn batch j c d) (d'.eraseTree (batchPath batch)) := by
  have herase := Disk.node?_eraseTree (p := batchPath batch) (by simp [batchPath]) d'
  have hrecord : ∀ name, (d'.eraseTree (batchPath batch)).node? [name] = d'.node? [name] := by
    intro name
    rw [herase, if_neg (by simp [Disk.encloses, batchPath, Text.dropPrefix?])]
  refine ⟨?_, ?_, ?_⟩
  · intro name hdir
    rw [herase] at hdir
    split at hdir
    · cases hdir
    · next hout =>
      rw [h.other _ (fun _ _ => by simp [stagedPath, batchPath])
        (fun _ _ _ _ => by simp [batchPath]), r.node?_settledIn_batchPath hc] at hdir
      exact hout (r.only name hdir ▸ Disk.encloses_self _)
  · intro c' hc' k hk
    obtain ⟨n, hn⟩ := List.mem_iff_getElem?.1 hc'
    rw [hrecord, h.record n c' hn k hk, Nat.zero_add, r.leaves_settledIn hp hc hn hk]
  · intro k i hk hi
    have hv := hp.valid c (List.mem_of_getElem? hc)
    have hne : ∀ c' ∈ changes, i ≠ c'.ident := by
      rintro c' hc' rfl
      exact hi (List.mem_map_of_mem hc')
    rw [hrecord, h.other _ (fun _ _ => record_ne_staged _ _ _) fun c' hc' k' hk' =>
        singleton_file_ne hk hk' (.inl (hne c' hc')),
      node?_settledIn (r.offered hc), if_neg (record_ne_staged _ _ _),
      if_neg (singleton_file_ne hk hv (.inl (hne c (List.mem_of_getElem? hc)))),
      r.represents.node?_file hk, appliedAll_of_not_mem]
    intro hmem
    exact hi (((List.take_sublist j changes).map Change.ident).subset hmem)

/-- A replay that was cut in the midst of a change comes to its end when it is done again. -/
theorem Replaying.recover_settledIn (r : Replaying onlyFiles batch changes m j d)
    (hb : Json.Unpaired batch) (hp : StorableChanges changes) (hc : changes[j]? = some c) :
    ∃ ss d', recoverProgram.Runs (settledIn batch j c d) ss () d'
      ∧ Reopened changes m (settledIn batch j c d) d' := by
  obtain ⟨hready, hclear⟩ := r.ready_settledIn hp hc
  obtain ⟨content, hmanifest, hencode⟩ := r.manifest
  rw [← r.node?_settledIn_manifest hc] at hmanifest
  obtain ⟨ss, d₁, hfinish, hcarried⟩ := replay_runs_carried hmanifest hencode hb hp.toProperChanges hready
    hclear
  exact recoverProgram_runs_batch hready.wellFormed hready.directory
    (fun name h => r.only name ((r.node?_settledIn_batchPath hc name).symm.trans h))
    (fun d' h => h.noBatch)
    ⟨_, _, recoverBatch_runs_replay hready.directory hmanifest hfinish, r.reopened_carried hp hc hcarried⟩

/-- A batch that was interrupted is finished on opening. -/
theorem Interrupted.recover_runs (h : Interrupted onlyFiles batch changes m cut)
    (hb : Json.Unpaired batch) (hp : StorableChanges changes) :
    ∃ ss d, recoverProgram.Runs cut ss () d ∧ Reopened changes m cut d := by
  rcases h.cases hp with ⟨j, hj, r⟩ | ⟨j, c, d, hc, r, rfl⟩
  · obtain ⟨ss, d, hruns, s⟩ := r.recover_runs hb hp hj
    exact ⟨ss, d, hruns, s.reopened hp r.represents⟩
  · exact r.recover_settledIn hb hp hc

/-- A batch that was cut behind its commitment is finished on opening. -/
theorem applyProgram_reopened (s : Settled onlyFiles m d) (hb : Json.Unpaired batch)
    (hp : StorableChanges changes) {complete : List Step}
    (h : (applyProgram batch changes).Stops d complete cut) (hcommit : commitStep batch ∈ complete) :
    ∃ ss d', recoverProgram.Runs cut ss () d' ∧ Reopened changes m cut d' := by
  rcases applyProgram_interrupted s not_onlyFiles hb hp h with ⟨hn, -⟩ | ⟨-, hcut | u⟩
  · exact absurd hcommit hn
  · exact hcut.recover_runs hb hp
  · obtain ⟨ss, d', hruns, s'⟩ := u.recover_runs
    exact ⟨ss, d', hruns, s'.reopened hp u.represents⟩

/-- **Changes of kinds and crashes.** A batch may be cut behind any of its steps from its commitment
on, or within one.  When the repository is opened again, no batch is left.  Of every record that the
batch stores the file of its new kind is there with the new bytes, and no other; of every record that
it deletes there is no file; and all other records are as before.  There is one exception: an old
file stays that the cut left beside the new one, when the name of the new one comes first. -/
theorem apply_crash_kind_change {name : List Char} {complete : List Step} (w : d.WellFormed)
    (t : Tidy d) (hnone : ∀ batch, d.node? (batchPath batch) ≠ some .directory)
    (hp : StorableChanges changes)
    (h : (applyProgram (Text.ofChars name) changes).Stops d complete cut)
    (hcommit : commitStep (Text.ofChars name) ∈ complete) :
    let opened := Procedure.run recover cut
    opened.result = .ok ()
      ∧ (∀ batch, opened.state.node? (batchPath batch) ≠ some .directory)
      ∧ (∀ c ∈ changes, ∀ k, Valid k c.ident → opened.state.node? [file k c.ident]
        = if LeftBehind c k cut then d.node? [file k c.ident] else recordNode c.stored k)
      ∧ ∀ k i, Valid k i → i ∉ changes.map Change.ident →
        opened.state.node? [file k i] = d.node? [file k i] := by
  obtain ⟨ss, d', hruns, hr⟩ := applyProgram_reopened (settled_of_tidy w t hnone)
    (Json.unpaired_ofChars name) hp h hcommit
  have hstate : (Procedure.run recover cut).state = d' := hruns.state_eq
  have hbefore : ∀ k i, Valid k i → d.node? [file k i] = recordNode (record? d i) k :=
    fun _ _ hk => t.represents.node?_file hk
  intro opened
  refine ⟨hruns.result_eq, ?_, ?_, ?_⟩
  · rw [hstate]
    exact hr.noBatch
  · intro c hc k hk
    rw [hstate, hbefore k c.ident hk]
    exact hr.changed c hc k hk
  · intro k i hk hi
    rw [hstate, hbefore k i hk]
    exact hr.unchanged k i hk hi

end Opening

/-! ## A task that becomes a simple record -/

/-- A repository with one task. -/
def oneTask : Disk := ⟨[([file "task" "a"], .file [1])]⟩

/-- A batch that stores the task as a simple record. -/
def toSimple : List Change := [.update "simple" "a" [2]]

/-- The manifest of that batch. -/
def toSimpleManifest : Bytes := (Manifest.encode (Text.ofChars ['1']) toSimple).toOption.getD []

/-- The repository when the simple record is staged. -/
def stagedTask : Disk := ⟨[([file "task" "a"], .file [1]), (pending, .directory),
  (batchPath "1", .directory), (stagedPath "1" 0, .file [2])]⟩

/-- The repository when the batch is committed. -/
def committedTask : Disk := committed "1" toSimpleManifest stagedTask

/-- The repository when the new file was moved into place and the old one is still there. -/
def movedTask : Disk := ⟨[([file "task" "a"], .file [1]), (pending, .directory),
  (batchPath "1", .directory), (manifestPath "1", .file toSimpleManifest),
  ([file "simple" "a"], .file [2])]⟩

/-- The steps of the batch up to its commitment. -/
def toSimpleSteps : List Step :=
  [.makeDirectory pending, .makeDirectory (batchPath "1"), .write (stagedPath "1" 0) [2],
    draftStep "1" toSimpleManifest, commitStep "1"]

theorem storableChanges_toSimple : StorableChanges toSimple :=
  ⟨⟨by decide, by decide, by decide⟩, by decide +kernel⟩

theorem encode_toSimple :
    Manifest.encode (Text.ofChars ['1']) toSimple = .ok toSimpleManifest := by
  obtain ⟨content, h, -⟩ := Manifest.read_encode (Json.unpaired_ofChars ['1'])
    storableChanges_toSimple.unpaired
  rw [toSimpleManifest, h]
  rfl

/-- A cut of the replay of the batch is a cut of the batch. -/
theorem stops_toSimple {complete : List Step} {cut : Disk}
    (h : (replay (batchPath (Text.ofChars ['1']))).Stops committedTask complete cut) :
    (applyProgram (Text.ofChars ['1']) toSimple).Stops oneTask (toSimpleSteps ++ complete) cut := by
  have hmake : (makeBatch (batchPath (Text.ofChars ['1']))).Runs oneTask
      [.makeDirectory pending, .makeDirectory (batchPath "1")] ()
      ⟨[([file "task" "a"], .file [1]), (pending, .directory), (batchPath "1", .directory)]⟩ :=
    .looked (.stepped rfl (.stepped rfl (.done _ _)))
  have hstage : (stage (batchPath (Text.ofChars ['1'])) 0 toSimple).Runs
      ⟨[([file "task" "a"], .file [1]), (pending, .directory), (batchPath "1", .directory)]⟩
      [.write (stagedPath "1" 0) [2]] () stagedTask := .stepped rfl (.done _ _)
  have hdraft : stagedTask.perform (draftStep "1" toSimpleManifest)
      = .ok (stagedTask.put (draftPath "1") (.file toSimpleManifest)) := rfl
  have hcommit : (stagedTask.put (draftPath "1") (.file toSimpleManifest)).perform (commitStep "1")
      = .ok committedTask := rfl
  have hrun : (commitBatch (Text.ofChars ['1']) toSimple toSimpleManifest).Runs oneTask toSimpleSteps
      () committedTask := hmake.andThen (hstage.andThen (.andThen (.step hdraft) (.step hcommit)))
  obtain ⟨e, he⟩ := applyProgram_eq encode_toSimple
  rw [he]
  exact hrun.stops_andThen (Program.stops_told_iff.2 (h.andThen _))

/-- The replay of the batch can be cut between its two steps. -/
theorem replay_stops_toSimple : (replay (batchPath (Text.ofChars ['1']))).Stops committedTask
    [.move (stagedPath "1" 0) [file "simple" "a"]] movedTask := by
  obtain ⟨next, hreplay, hnext⟩ := replay_eq (d := committedTask) rfl encode_toSimple
    (Json.unpaired_ofChars ['1']) storableChanges_toSimple.unpaired
  have hfits : (Change.update "simple" "a" [2]).Fits :=
    storableChanges_toSimple.fits _ List.mem_cons_self
  have hplace : (placing (Text.ofChars ['1']) 0 (.update "simple" "a" [2])).Runs committedTask
      [.move (stagedPath "1" 0) [file "simple" "a"]] () movedTask :=
    placing_runs rfl (by decide) hfits (.inr rfl) (by decide)
  have hchange : (replayProgram (Text.ofChars ['1']) 0 (.update "simple" "a" [2])).Stops committedTask
      [.move (stagedPath "1" 0) [file "simple" "a"]] movedTask := by
    rw [replayProgram_eq_of_fits hfits]
    exact Program.stops_looked_iff.2 (hplace.stops.andThen _)
  rw [hreplay, Program.stops_looked_iff, hnext, finishBatch, toSimple, Replaying.replayChanges_cons]
  exact (hchange.andThen _).andThen _

theorem wellFormed_oneTask : oneTask.WellFormed := ⟨by decide, by decide, by decide⟩

theorem tidy_oneTask : Tidy oneTask := by
  have r : Represents (Disk.put [file "task" "a"] (.file [1]) {}) _ :=
    represents_empty.put_file (by decide) (by simp) [1]
  exact r.tidy

theorem noBatch_oneTask (batch : Text) : oneTask.node? (batchPath batch) ≠ some .directory := by
  simp [oneTask, Disk.node?, batchPath, List.lookup_cons]

/-- Cut right behind its commitment, the batch is finished: the record has its new file, and the old
one is gone. -/
theorem apply_crash_kind_change_committed :
    let opened := Procedure.run recover committedTask
    opened.result = .ok () ∧ opened.state.node? [file "simple" "a"] = some (.file [2])
      ∧ opened.state.node? [file "task" "a"] = none := by
  have hstops := stops_toSimple (Stops.start _ committedTask)
  obtain ⟨hresult, -, hchanged, -⟩ := apply_crash_kind_change wellFormed_oneTask tidy_oneTask
    noBatch_oneTask storableChanges_toSimple hstops (by simp [toSimpleSteps, Text.ofString])
  have hrecord := hchanged (.update "simple" "a" [2]) List.mem_cons_self
  refine ⟨hresult, (hrecord "simple" (by decide)).trans ?_, (hrecord "task" (by decide)).trans ?_⟩
  · rw [if_neg fun h => h.other rfl]
    rfl
  · rw [if_neg (by decide)]
    rfl

/-- Cut between the two steps of its replay, the batch leaves two files of one record: the name of
the new one comes first, so that the old one is not found again. -/
theorem apply_crash_two_files :
    oneTask.WellFormed ∧ Tidy oneTask
      ∧ (∀ batch, oneTask.node? (batchPath batch) ≠ some .directory) ∧ StorableChanges toSimple
      ∧ (applyProgram (Text.ofChars ['1']) toSimple).Stops oneTask
        (toSimpleSteps ++ [.move (stagedPath "1" 0) [file "simple" "a"]]) movedTask
      ∧ commitStep "1" ∈ toSimpleSteps
      ∧ let opened := Procedure.run recover movedTask
        opened.result = .ok () ∧ opened.state.node? [file "simple" "a"] = some (.file [2])
          ∧ opened.state.node? [file "task" "a"] = some (.file [1]) := by
  have hstops := stops_toSimple replay_stops_toSimple
  have hmem : commitStep "1" ∈ toSimpleSteps := by simp [toSimpleSteps]
  obtain ⟨ss, d', hruns, hr⟩ := applyProgram_reopened
    (settled_of_tidy wellFormed_oneTask tidy_oneTask noBatch_oneTask) (Json.unpaired_ofChars ['1'])
    storableChanges_toSimple hstops (List.mem_append_left _ hmem)
  have hstate : (Procedure.run recover movedTask).state = d' := hruns.state_eq
  have hrecord := hr.changed (.update "simple" "a" [2]) List.mem_cons_self
  refine ⟨wellFormed_oneTask, tidy_oneTask, noBatch_oneTask, storableChanges_toSimple, hstops, hmem,
    hruns.result_eq, ?_, ?_⟩
  · rw [hstate]
    refine (hrecord "simple" (by decide)).trans ?_
    rw [if_neg fun h => h.other rfl]
    rfl
  · rw [hstate]
    refine (hrecord "task" (by decide)).trans ?_
    rw [if_pos (by decide)]
    exact (tidy_oneTask.represents.node?_file (by decide)).symm.trans rfl

end RecordStore.Repository
