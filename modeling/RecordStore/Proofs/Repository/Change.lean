import RecordStore.Proofs.Disk.Stops
import RecordStore.Proofs.Repository.Lookup
import RecordStore.Proofs.Repository.Manifest

/-!
# RecordStore.Proofs.Repository.Change

What replaying a change does to any repository, whatever its record files: there may be several of
one identifier, and directories may have the name of one.  A change looks at the files of its own
identifier and at its staged file, and `leaves` says what it leaves of them; it comes to its end when
its record has a name that a file can have and no directory is in its way (`Clear`), and then the disk
is the one that it has `carried` over.
-/

namespace RecordStore

open Disk (Program Step)
open RecordName (Valid file)

/-- What a change leaves at its identifier: the record that it stores, or none. -/
def Change.stored (c : Change) : Option (Text × Bytes) := c.data?.map fun data => (c.kind, data)

/-- A change whose record, if it stores one, has a name that a file can have. -/
def Change.Fits (c : Change) : Prop := c.data? ≠ none → Path.IsFileName (file c.kind c.ident)

instance (c : Change) : Decidable c.Fits :=
  inferInstanceAs (Decidable (c.data? ≠ none → Path.IsFileName (file c.kind c.ident)))

/-- A change whose record, if a file gets its name at all, is stored under its own. -/
def Change.Kept (c : Change) : Prop := c.data? ≠ none → Path.Kept (file c.kind c.ident)

/-- A change whose record, if it stores one, has a kind and an identifier without lone surrogates. -/
def Change.Plain (c : Change) : Prop := c.data? ≠ none → c.kind.Plain ∧ c.ident.Plain

namespace Repository

/-! ## The paths of a batch -/

/-- The place where the bytes of a change are staged. -/
def stagedPath (batch : Text) (n : Nat) : Path := batchPath batch ++ [Manifest.stagedName n]

/-- The place of the manifest of a batch. -/
def manifestPath (batch : Text) : Path := batchPath batch ++ [Manifest.fileName]

theorem record_ne_staged (name batch : Text) (n : Nat) : [name] ≠ stagedPath batch n := by
  simp [stagedPath, batchPath]

theorem stagedPath_inj {batch : Text} {i j : Nat} (h : stagedPath batch i = stagedPath batch j) :
    i = j := by
  simp only [stagedPath, batchPath, List.cons_append, List.nil_append, List.cons.injEq, true_and,
    and_true] at h
  exact Manifest.stagedName_inj h

theorem manifestPath_ne_stagedPath (batch : Text) (n : Nat) :
    manifestPath batch ≠ stagedPath batch n := by
  simp only [manifestPath, stagedPath, ne_eq, List.append_cancel_left_eq, List.cons.injEq, and_true]
  exact (Manifest.stagedName_ne_fileName n).symm

/-! ## What a change leaves -/

/-- The record file that a change takes away: the first of its identifier, unless the change stores
that one anew. -/
def outdated? (c : Change) (d : Disk) : Option RecordFile :=
  (find? c.ident d).filter fun f => c.data?.isNone || f.name ≠ file c.kind c.ident

/-- What a change leaves at the name of a record file of its identifier, by what is staged for it. -/
def leaves (c : Change) (staged : Option Node) (d : Disk) (name : Text) : Option Node :=
  if (outdated? c d).map RecordFile.name = some name then none
  else if name = file c.kind c.ident then staged.or (d.node? [name])
  else d.node? [name]

/-- A change that fits, and no directory is where it moves its staged file to, or where it takes a file
away. -/
structure Clear (c : Change) (staged : Option Node) (d : Disk) : Prop where
  fits : c.Fits
  target : staged ≠ none → d.node? [file c.kind c.ident] ≠ some .directory
  outdated : ∀ f ∈ outdated? c d, d.node? [f.name] ≠ some .directory

/-- What can be staged for a change: its data, or nothing when that was moved already. -/
def Offered (c : Change) (staged : Option Node) : Prop :=
  staged = none ∨ staged = c.data?.map .file

section Leaves

variable {c : Change} {staged : Option Node} {d d' : Disk} {k : Text}

theorem Offered.eq_none_or (ho : Offered c staged) :
    staged = none ∨ ∃ data, c.data? = some data ∧ staged = some (.file data) := by
  rcases ho with h | h
  · exact .inl h
  · cases hdata : c.data? with
    | none => exact .inl (by rw [h, hdata]; rfl)
    | some data => exact .inr ⟨data, rfl, by rw [h, hdata]; rfl⟩

/-- Nothing can be staged for a deletion. -/
theorem Offered.eq_none (ho : Offered c staged) (hdata : c.data? = none) : staged = none := by
  rcases ho.eq_none_or with h | ⟨data, hsome, -⟩
  · exact h
  · rw [hdata] at hsome
    cases hsome

theorem find?_of_outdated? {f : RecordFile} (h : outdated? c d = some f) :
    find? c.ident d = some f ∧ (c.data? ≠ none → f.name ≠ file c.kind c.ident) := by
  obtain ⟨hfind, hout⟩ := Option.filter_eq_some_iff.1 h
  refine ⟨hfind, fun hdata => ?_⟩
  simpa [Option.isNone_iff_eq_none, hdata] using hout

theorem file_eq_iff {k k' ident : Text} (hk : Valid k ident) (hk' : Valid k' ident) :
    file k ident = file k' ident ↔ k = k' :=
  ⟨fun h => (RecordName.file_inj hk h hk').1, fun h => h ▸ rfl⟩

/-- What a change leaves at the name of a record file, by the kind in that name. -/
theorem leaves_file (hc : Valid c.kind c.ident) (hk : Valid k c.ident) :
    leaves c staged d (file k c.ident)
      = if (find? c.ident d).map RecordFile.kind = some k ∧ (c.data? = none ∨ k ≠ c.kind) then none
        else if k = c.kind then staged.or (d.node? [file k c.ident])
        else d.node? [file k c.ident] := by
  have hout : (outdated? c d).map RecordFile.name = some (file k c.ident)
      ↔ (find? c.ident d).map RecordFile.kind = some k ∧ (c.data? = none ∨ k ≠ c.kind) := by
    rw [outdated?]
    cases hfind : find? c.ident d with
    | none => simp
    | some f =>
        obtain ⟨hv, hname, -, -⟩ := exists_of_find? hfind
        simp only [Option.map_eq_some_iff, Option.filter_eq_some_iff, Option.some.injEq]
        constructor
        · rintro ⟨g, ⟨rfl, hdrop⟩, heq⟩
          rw [hname, file_eq_iff hv hk] at heq
          subst heq
          simpa [hname, file_eq_iff hv hc] using hdrop
        · rintro ⟨⟨g, rfl, rfl⟩, hdrop⟩
          exact ⟨f, ⟨rfl, by simpa [hname, file_eq_iff hv hc] using hdrop⟩, hname⟩
  simp only [leaves, hout, file_eq_iff hk hc]

section Congr

variable (h : ∀ k, Valid k c.ident → d.node? [file k c.ident] = d'.node? [file k c.ident])
include h

theorem outdated?_congr : outdated? c d = outdated? c d' := by
  rw [outdated?, outdated?, find?_congr fun k hv => congrArg _ (h k hv)]

theorem leaves_congr (hv : Valid k c.ident) :
    leaves c staged d (file k c.ident) = leaves c staged d' (file k c.ident) := by
  rw [leaves, leaves, outdated?_congr h, h k hv]

theorem Clear.congr (hc : Valid c.kind c.ident) (hclear : Clear c staged d) : Clear c staged d' where
  fits := hclear.fits
  target := by rw [← h _ hc]; exact hclear.target
  outdated := by
    intro f hf
    rw [← outdated?_congr h] at hf
    obtain ⟨hv, hname, -, -⟩ := exists_of_find? (find?_of_outdated? hf).1
    rw [hname, ← h _ hv, ← hname]
    exact hclear.outdated f hf

end Congr

theorem recordNode_stored {data : Bytes} (h : c.data? = some data) (kind : Text) :
    recordNode c.stored kind = if c.kind = kind then some (.file data) else none := by
  rw [Change.stored, h, Option.map_some, recordNode_some]

theorem recordNode_stored_of_delete (h : c.data? = none) (kind : Text) :
    recordNode c.stored kind = none := by rw [Change.stored, h]; rfl

/-- A change whose staged file is there leaves what it stores, where the record was one file. -/
theorem leaves_eq_stored {v? : Option (Text × Bytes)} (hc : Valid c.kind c.ident)
    (h : ∀ k, Valid k c.ident → d.node? [file k c.ident] = recordNode v? k) (hk : Valid k c.ident) :
    leaves c (c.data?.map .file) d (file k c.ident) = recordNode c.stored k := by
  have hfound : ∀ f, find? c.ident d = some f → ∀ k, Valid k c.ident → k ≠ f.kind →
      d.node? [file k c.ident] = none := by
    intro f hf k hk hne
    obtain ⟨hv, hname, -, n, hn⟩ := exists_of_find? hf
    rw [hname, h _ hv] at hn
    rw [h k hk]
    cases v? with
    | none => rfl
    | some v =>
        have hkind : v.1 = f.kind := by
          by_contra hne'
          rw [recordNode_some, if_neg hne'] at hn
          cases hn
        rw [recordNode_some, if_neg (hkind ▸ Ne.symm hne)]
  rw [leaves_file hc hk]
  cases hdata : c.data? with
  | none =>
      rw [recordNode_stored_of_delete hdata]
      cases hfind : find? c.ident d with
      | none => simp [find?_eq_none_iff.1 hfind k hk]
      | some f =>
          by_cases hkf : k = f.kind
          · simp [hkf]
          · simp [Ne.symm hkf, hfound f hfind k hk hkf]
  | some data =>
      rw [recordNode_stored hdata]
      by_cases hkc : k = c.kind
      · simp [hkc]
      · cases hfind : find? c.ident d with
        | none => simp [find?_eq_none_iff.1 hfind k hk, hkc, Ne.symm hkc]
        | some f =>
            by_cases hkf : k = f.kind
            · subst hkf; simp [hkc, Ne.symm hkc]
            · simp [Ne.symm hkf, hfound f hfind k hk hkf, hkc, Ne.symm hkc]

/-- Where no directory has the name of a record file, none is in the way of a change. -/
theorem clear_of_noDirectory
    (hnone : ∀ {kind ident}, Valid kind ident → d.node? [file kind ident] ≠ some .directory)
    (hc : Valid c.kind c.ident) (hfits : c.Fits) (staged : Option Node) : Clear c staged d where
  fits := hfits
  target := fun _ => hnone hc
  outdated := by
    intro f hf
    obtain ⟨hk, hname, -, -⟩ := exists_of_find? (find?_of_outdated? hf).1
    rw [hname]
    exact hnone hk

end Leaves

/-! ## The disk after a change -/

section Carried

variable {c : Change} {d : Disk} {batch : Text} {n : Nat}

/-- The disk after the staged file of a change was moved into place. -/
def placed (batch : Text) (n : Nat) (c : Change) (data : Bytes) (d : Disk) : Disk :=
  (d.erase (stagedPath batch n)).put [file c.kind c.ident] (.file data)

theorem node?_placed (data : Bytes) (q : Path) :
    (placed batch n c data d).node? q = if q = [file c.kind c.ident] then some (.file data)
      else if q = stagedPath batch n then none else d.node? q := by
  rw [placed, Disk.node?_put (by simp), Disk.node?_erase (by simp [stagedPath])]

/-- The disk after the staged file of a change was moved into place, if it was there. -/
def settledIn (batch : Text) (n : Nat) (c : Change) (d : Disk) : Disk :=
  match d.node? (stagedPath batch n) with
  | some (.file data) => placed batch n c data d
  | _ => d

/-- The disk after a record file was taken away, if there is one. -/
def discarded (f? : Option RecordFile) (d : Disk) : Disk := f?.elim d fun f => d.erase [f.name]

/-- The disk after a change. -/
def carried (batch : Text) (n : Nat) (c : Change) (d : Disk) : Disk :=
  discarded (outdated? c d) (settledIn batch n c d)

/-- The step that moves the staged file of a change, if it is there. -/
def moveSteps (batch : Text) (n : Nat) (c : Change) (d : Disk) : List Step :=
  if d.node? (stagedPath batch n) = none then []
  else [.move (stagedPath batch n) [file c.kind c.ident]]

/-- The step that takes a record file away, if there is one. -/
def discardSteps (f? : Option RecordFile) : List Step := f?.toList.map fun f => .remove [f.name]

theorem length_moveSteps (batch : Text) (n : Nat) (c : Change) (d : Disk) :
    (moveSteps batch n c d).length ≤ 1 := by
  rw [moveSteps]
  split <;> simp

theorem whole_moveSteps (batch : Text) (n : Nat) (c : Change) (d : Disk) :
    ∀ s ∈ moveSteps batch n c d, s.Whole := by
  rw [moveSteps]
  split <;> simp [Step.whole_move]

theorem length_discardSteps (f? : Option RecordFile) : (discardSteps f?).length ≤ 1 := by
  cases f? <;> simp [discardSteps]

theorem whole_discardSteps (f? : Option RecordFile) : ∀ s ∈ discardSteps f?, s.Whole := by
  cases f? <;> simp [discardSteps, Step.whole_remove]

theorem node?_settledIn (ho : Offered c (d.node? (stagedPath batch n))) (p : Path) :
    (settledIn batch n c d).node? p = if p = stagedPath batch n then none
      else if p = [file c.kind c.ident] then (d.node? (stagedPath batch n)).or (d.node? p)
      else d.node? p := by
  rw [settledIn]
  split
  · next data hs =>
    have hne := record_ne_staged (file c.kind c.ident) batch n
    rw [node?_placed, hs]
    by_cases hp : p = stagedPath batch n
    · rw [if_pos hp, if_pos hp, if_neg (hp ▸ Ne.symm hne)]
    · simp only [if_neg hp, Option.some_or]
  · next hs =>
    have hnone := ho.eq_none_or.resolve_right fun ⟨data, _, hdata⟩ => hs data hdata
    rw [hnone]
    by_cases hp : p = stagedPath batch n
    · rw [if_pos hp, hp, hnone]
    · simp only [if_neg hp, Option.none_or, ite_self]

theorem node?_discarded (f? : Option RecordFile) (d : Disk) (p : Path) :
    (discarded f? d).node? p = if f?.map (fun f => [f.name]) = some p then none else d.node? p := by
  cases f? with
  | none => rfl
  | some f =>
      have herase := Disk.node?_erase (p := [f.name]) (by simp) d p
      simp only [discarded, Option.elim, Option.map_some, Option.some.injEq, herase, @eq_comm _ p]

/-- What a change leaves of the record files of its identifier. -/
theorem node?_carried_record (ho : Offered c (d.node? (stagedPath batch n))) (name : Text) :
    (carried batch n c d).node? [name] = leaves c (d.node? (stagedPath batch n)) d name := by
  rw [carried, node?_discarded, node?_settledIn ho, if_neg (record_ne_staged _ _ _), leaves]
  have hiff : (outdated? c d).map (fun f => [f.name]) = some [name]
      ↔ (outdated? c d).map RecordFile.name = some name := by
    cases outdated? c d <;> simp
  simp only [hiff, List.cons.injEq, and_true]

/-- A change leaves nothing staged. -/
theorem node?_carried_staged (ho : Offered c (d.node? (stagedPath batch n))) :
    (carried batch n c d).node? (stagedPath batch n) = none := by
  rw [carried, node?_discarded, node?_settledIn ho, if_pos rfl, ite_self]

/-- A change leaves all else as it is. -/
theorem node?_carried_other (ho : Offered c (d.node? (stagedPath batch n)))
    (hv : Valid c.kind c.ident) {p : Path} (hp : p ≠ stagedPath batch n)
    (hfile : ∀ k, Valid k c.ident → p ≠ [file k c.ident]) :
    (carried batch n c d).node? p = d.node? p := by
  rw [carried, node?_discarded, node?_settledIn ho, if_neg hp, if_neg (hfile _ hv), if_neg]
  intro hout
  obtain ⟨f, hf, hname⟩ := Option.map_eq_some_iff.1 hout
  obtain ⟨hk, hfname, -, -⟩ := exists_of_find? (find?_of_outdated? hf).1
  exact hfile _ hk (hfname ▸ hname.symm)

/-- Moving the staged file into place does not touch the file that is taken away then. -/
theorem node?_settledIn_outdated (ho : Offered c (d.node? (stagedPath batch n))) {f : RecordFile}
    (hf : outdated? c d = some f) : (settledIn batch n c d).node? [f.name] = d.node? [f.name] := by
  rw [node?_settledIn ho, if_neg (record_ne_staged _ _ _)]
  split
  · next hname =>
    -- Only a deletion takes away the file of its own name, and for that nothing is staged.
    have hdata : c.data? = none := by
      by_contra hne
      exact (find?_of_outdated? hf).2 hne (List.cons.inj hname).1
    rw [ho.eq_none hdata, Option.none_or]
  · rfl

theorem wellFormed_settledIn (w : d.WellFormed)
    (htarget : d.node? (stagedPath batch n) ≠ none →
      d.node? [file c.kind c.ident] ≠ some .directory) : (settledIn batch n c d).WellFormed := by
  rw [settledIn]
  split
  · next data hs =>
    refine (w.erase_file (by rw [hs]; simp)).put (by simp) (by simp) (.inr ?_)
    rw [Disk.node?_erase (by simp [stagedPath]), if_neg (record_ne_staged _ _ _)]
    exact htarget (by rw [hs]; simp)
  · exact w

theorem wellFormed_carried (w : d.WellFormed) (ho : Offered c (d.node? (stagedPath batch n)))
    (hclear : Clear c (d.node? (stagedPath batch n)) d) : (carried batch n c d).WellFormed := by
  have hsettled := wellFormed_settledIn w hclear.target
  rw [carried]
  cases hout : outdated? c d with
  | none => exact hsettled
  | some f =>
      refine hsettled.erase_file ?_
      rw [node?_settledIn_outdated ho hout]
      exact hclear.outdated f hout

end Carried

/-! ## Moving and discarding files -/

section PlaceStaged

variable {d : Disk} {batch : Text} {n : Nat} {name : Text}

/-- A staged file is found where it was put, if it is still there. -/
theorem look_stagedName (hdir : d.node? (batchPath batch) = some .directory) :
    d.look (batchPath batch) (Manifest.stagedName n)
      = if d.holds (stagedPath batch n) then some (.inside (stagedPath batch n)) else none := by
  have henter : d.enter (.inside (batchPath batch)) (Manifest.stagedName n)
      = .ok (.inside (stagedPath batch n)) := by
    simp only [Disk.enter, hdir, if_pos (Manifest.stagedName_ne_parentName n)]
    rfl
  simp [Disk.look, Manifest.onDisk_stagedName, Disk.start, Manifest.isAbsolute_stagedName, henter,
    Except.toOption, Option.filter]

/-- What is moved to one name comes to stand at it, unless the name is too long. -/
theorem landing_name (hname : Path.ofText name = [name]) (hparent : name ≠ Path.parentName) :
    d.landing (Disk.start [] name) [name]
      = if Path.isLong name then .error .busy else .ok (.inside [name]) := by
  have habsolute : Path.isAbsolute name = false :=
    Path.isAbsolute_of_slash_not_mem (Path.ofText_eq_singleton_iff.1 hname).1
  have henter : d.enter (.inside []) name = .ok (.inside [name]) := by
    simp [Disk.enter, hparent]
  rw [Disk.landing, Disk.start, habsolute]
  simp only [List.dropLast_singleton, List.foldlM_nil, List.foldlM_cons, Disk.enterNew, henter,
    Bool.false_eq_true, if_false, bind, Except.bind, pure, Except.pure]
  cases Path.isLong name <;> rfl

/-- A record whose name is that of a file comes to stand at it. -/
theorem recordPlace_of_isFileName (hfile : Path.IsFileName name) (hparent : name ≠ Path.parentName)
    (d : Disk) : recordPlace name d = .ok (.inside [name]) := by
  have hshort : ¬ Path.isLong name = true := by simp [hfile.short]
  rw [recordPlace, hfile.onDisk]
  simp only [Except.mapError, bind, Except.bind, landing_name hfile.ofText_eq hparent, if_neg hshort]

/-- A record that would keep its name, which no file can have, has no place to stand. -/
theorem exists_recordPlace_eq_error (hkept : Path.Kept name) (hfile : ¬ Path.IsFileName name)
    (hparent : name ≠ Path.parentName) (d : Disk) : ∃ f, recordPlace name d = .error f := by
  cases hpath : Path.onDisk name with
  | error e => exact ⟨nameFailure e, by rw [recordPlace, hpath]; rfl⟩
  | ok names =>
      obtain rfl := hkept names hpath
      have hlong : Path.isLong name = true := by
        by_contra hshort
        exact hfile ⟨hpath, by simpa using hshort⟩
      refine ⟨.storage .busy, ?_⟩
      rw [recordPlace, hpath]
      simp only [Except.mapError, bind, Except.bind,
        landing_name (Path.ofText_eq_of_onDisk hpath) hparent, if_pos hlong]

/-- What placing a staged file does: it looks for the file, and if it is there, it looks where the record
comes to stand and moves the file there. -/
theorem placeStaged_eq (batch : Path) (file name : Text) : placeStaged batch file name = .looked fun d =>
    match d.look batch file with
    | none => .done ()
    | some source => .looked fun d =>
      Program.ofExcept (recordPlace name d) >>= placeStaged.moveTo file source := rfl

/-- A staged file that is gone is not moved. -/
theorem placeStaged_runs_gone (name : Text) (hdir : d.node? (batchPath batch) = some .directory)
    (hgone : d.node? (stagedPath batch n) = none) :
    (placeStaged (batchPath batch) (Manifest.stagedName n) name).Runs d [] () d := by
  have hholds : ¬ d.holds (stagedPath batch n) = true := by simp [hgone]
  rw [placeStaged_eq]
  apply Program.Runs.looked
  rw [look_stagedName hdir, if_neg hholds]
  exact .done () d

/-- A staged file that is found is moved by a step of its own. -/
theorem moveTo_staged (source target : Path) :
    placeStaged.moveTo (Manifest.stagedName n) (.inside source) (.inside target)
      = Program.step (.move source target) := by
  simp [placeStaged.moveTo, Manifest.ofText_stagedName, Manifest.stagedName_ne_parentName]

section Found

variable {data : Bytes} (hdir : d.node? (batchPath batch) = some .directory)
  (hstaged : d.node? (stagedPath batch n) = some (.file data))
include hdir hstaged

/-- A staged file is not moved when the record has no place to stand. -/
theorem placeStaged_yields_error {f : Failure} (hplace : recordPlace name d = .error f) :
    (placeStaged (batchPath batch) (Manifest.stagedName n) name).run.Yields d (.error f) d := by
  have hholds : d.holds (stagedPath batch n) = true := Disk.holds_iff.2 ⟨_, hstaged⟩
  rw [placeStaged_eq, Program.yields_looked_iff, look_stagedName hdir, if_pos hholds]
  simp only [Program.yields_looked_iff, hplace]
  exact ⟨rfl, rfl⟩

variable (hname : name ≠ pendingName) (hparent : name ≠ Path.parentName)
include hname hparent

/-- A staged file is moved into place. -/
theorem placeStaged_runs (hfile : Path.IsFileName name) (htarget : d.node? [name] ≠ some .directory) :
    (placeStaged (batchPath batch) (Manifest.stagedName n) name).Runs d
      [.move (stagedPath batch n) [name]] ()
      ((d.erase (stagedPath batch n)).put [name] (.file data)) := by
  have hholds : d.holds (stagedPath batch n) = true := Disk.holds_iff.2 ⟨_, hstaged⟩
  have hmove := Disk.perform_move_file hstaged htarget (by simp [stagedPath, batchPath])
    (by simp [Disk.encloses, stagedPath, batchPath, Text.dropPrefix?])
    (by simp [Disk.encloses, stagedPath, batchPath, Text.dropPrefix?, hname])
  rw [placeStaged_eq]
  apply Program.Runs.looked
  rw [look_stagedName hdir, if_pos hholds]
  apply Program.Runs.looked
  simp only [recordPlace_of_isFileName hfile hparent, Program.ofExcept, Program.done_bind, moveTo_staged]
  exact .step hmove

/-- A staged file is not moved to what is no name of a file, nor onto a directory. -/
theorem placeStaged_refused (hkept : Path.Kept name)
    (hblocked : Path.IsFileName name → d.node? [name] = some .directory) :
    ∃ f, (placeStaged (batchPath batch) (Manifest.stagedName n) name).run.Yields d (.error f) d := by
  by_cases hfile : Path.IsFileName name
  · have hholds : d.holds (stagedPath batch n) = true := Disk.holds_iff.2 ⟨_, hstaged⟩
    have hmove : d.perform (.move (stagedPath batch n) [name]) = .error .isDirectory := by
      have hout : Disk.encloses (stagedPath batch n) [name] = false := by
        simp [Disk.encloses, stagedPath, batchPath, Text.dropPrefix?]
      have hin : Disk.encloses [name] (stagedPath batch n) = false := by
        simp [Disk.encloses, stagedPath, batchPath, Text.dropPrefix?, hname]
      simp [Disk.perform, hstaged, hblocked hfile, hout, hin, (record_ne_staged _ _ _).symm]
    refine ⟨.storage .isDirectory, ?_⟩
    rw [placeStaged_eq, Program.yields_looked_iff, look_stagedName hdir, if_pos hholds]
    simp only [Program.yields_looked_iff, recordPlace_of_isFileName hfile hparent, Program.ofExcept,
      Program.done_bind, moveTo_staged]
    exact Program.yields_of_refused _ hmove
  · obtain ⟨f, hplace⟩ := exists_recordPlace_eq_error hkept hfile hparent d
    exact ⟨f, placeStaged_yields_error hdir hstaged hplace⟩

end Found

end PlaceStaged

/-- Taking a file away that is there. -/
theorem discardFile_runs {d : Disk} {p : Path} {data : Bytes} (h : d.node? p = some (.file data)) :
    (Program.discardFile p).Runs d [.remove p] () (d.erase p) := by
  apply Program.Runs.looked
  have hp : d.holds p = true := Disk.holds_iff.2 ⟨_, h⟩
  simp only [Program.andThen, hp, if_true]
  exact .step (Disk.perform_remove h)

/-- What the replay of a change does: it looks for the record, and moves and drops files. -/
def replayProgram (batch : Text) (n : Nat) (c : Change) : Program Unit := do
  let current := find? c.ident (← Program.disk)
  match c.data? with
  | none => dropFile current
  | some _ =>
    placeStaged (batchPath batch) (Manifest.stagedName n) (file c.kind c.ident)
    if current.any fun f => !f.standsAt (file c.kind c.ident) then
      dropFile current

theorem replayChange_eq (batch : Text) (n : Nat) (c : Change) :
    replayChange (batchPath batch) (Manifest.changeJson n c) = replayProgram batch n c := by
  cases c <;> rfl

/-! ## Running a change -/

section Running

variable {c : Change} {d : Disk} {batch : Text} {n : Nat}

/-- The part of a change that moves its staged file into place. -/
def placing (batch : Text) (n : Nat) (c : Change) : Program Unit :=
  if c.data?.isSome then
    placeStaged (batchPath batch) (Manifest.stagedName n) (file c.kind c.ident)
  else pure ()

/-- The record file that a change takes away, by the names that the text of its path holds. -/
def superseded? (c : Change) (d : Disk) : Option RecordFile :=
  (find? c.ident d).filter fun f => c.data?.isNone || !f.standsAt (file c.kind c.ident)

/-- A record file stands at its own name, where that is one name as the text of a path. -/
theorem superseded?_eq (hflat : c.data? ≠ none → Path.ofText (file c.kind c.ident) = [file c.kind c.ident])
    (d : Disk) : superseded? c d = outdated? c d := by
  rw [superseded?, outdated?]
  cases hdata : c.data? with
  | none => rfl
  | some data =>
      have hname := hflat (by simp [hdata])
      have habsolute := Path.isAbsolute_of_slash_not_mem (Path.ofText_eq_singleton_iff.1 hname).1
      refine congrArg (Option.filter · _) (funext fun f => Bool.eq_iff_iff.2 ?_)
      simp [RecordFile.standsAt, habsolute, hname, @eq_comm _ f.name]

/-- A change moves its staged file into place, and then takes away what that does not replace. -/
theorem replayProgram_eq (batch : Text) (n : Nat) (c : Change) :
    replayProgram batch n c = .looked fun d =>
      placing batch n c >>= fun _ => dropFile (superseded? c d) := by
  refine congrArg Program.looked (funext fun d => ?_)
  cases hdata : c.data? with
  | none =>
      have hout : superseded? c d = find? c.ident d := by
        rw [superseded?, hdata]
        cases find? c.ident d <;> rfl
      rw [hout, placing, hdata]
      rfl
  | some data =>
      have hplacing : placing batch n c
          = placeStaged (batchPath batch) (Manifest.stagedName n) (file c.kind c.ident) := by
        rw [placing, hdata]; rfl
      simp only [Program.andThen, hdata, hplacing, superseded?, Option.isNone_some, Bool.false_or]
      refine congrArg (Program.andThen · _) (funext fun _ => ?_)
      cases find? c.ident d with
      | none => rfl
      | some f =>
          cases h : f.standsAt (file c.kind c.ident) with
          | true => simp [h, Option.filter]; rfl
          | false => simp [h, Option.filter]

/-- A change of a record with a proper name takes away what is outdated. -/
theorem replayProgram_eq_of_fits (hfits : c.Fits) : replayProgram batch n c = .looked fun d =>
    placing batch n c >>= fun _ => dropFile (outdated? c d) := by
  rw [replayProgram_eq]
  exact congrArg Program.looked (funext fun d => by
    rw [superseded?_eq fun hdata => (hfits hdata).ofText_eq])

/-- What a change has staged is moved into place. -/
theorem placing_runs (hdir : d.node? (batchPath batch) = some .directory)
    (hv : Valid c.kind c.ident) (hfits : c.Fits) (ho : Offered c (d.node? (stagedPath batch n)))
    (htarget : d.node? (stagedPath batch n) ≠ none →
      d.node? [file c.kind c.ident] ≠ some .directory) :
    (placing batch n c).Runs d (moveSteps batch n c d) () (settledIn batch n c d) := by
  rw [placing, moveSteps, settledIn]
  cases hdata : c.data? with
  | none =>
      rw [ho.eq_none hdata, if_pos rfl]
      exact .done () d
  | some data =>
      rw [Option.isSome_some, if_pos rfl]
      rcases ho.eq_none_or with hs | ⟨data', -, hs⟩
      · rw [hs, if_pos rfl]
        exact placeStaged_runs_gone _ hdir hs
      · rw [hs, if_neg (by simp)]
        exact placeStaged_runs hdir hs (file_ne_pendingName hv) (RecordName.file_ne_parentName _ _)
          (hfits (by simp [hdata])) (htarget (by rw [hs]; simp))

theorem dropFile_runs {f? : Option RecordFile}
    (h : ∀ f ∈ f?, ∃ bytes, d.node? [f.name] = some (.file bytes)) :
    (dropFile f?).Runs d (discardSteps f?) () (discarded f? d) := by
  cases f? with
  | none => exact .done () d
  | some f =>
      obtain ⟨bytes, hn⟩ := h f rfl
      exact discardFile_runs hn

/-- A directory is not taken away as a record file. -/
theorem dropFile_refused {f : RecordFile} (h : d.node? [f.name] = some .directory) :
    (dropFile (some f)).run.Yields d (.error (.storage .isDirectory)) d := by
  have hholds : d.holds [f.name] = true := Disk.holds_iff.2 ⟨_, h⟩
  have hremove : d.perform (.remove [f.name]) = .error .isDirectory := by simp [Disk.perform, h]
  refine Program.yields_looked_iff.2 ?_
  simp only [Program.andThen, hholds, if_true]
  exact Program.yields_of_refused _ hremove

/-- What a change takes away is a file, when nothing is in its way. -/
theorem exists_file_of_outdated? (ho : Offered c (d.node? (stagedPath batch n)))
    (hclear : Clear c (d.node? (stagedPath batch n)) d) :
    ∀ f ∈ outdated? c d, ∃ bytes, (settledIn batch n c d).node? [f.name] = some (.file bytes) := by
  intro f hf
  rw [node?_settledIn_outdated ho hf]
  obtain ⟨-, -, -, x, hx⟩ := exists_of_find? (find?_of_outdated? hf).1
  cases x with
  | file bytes => exact ⟨bytes, hx⟩
  | directory => exact absurd hx (hclear.outdated f hf)

/-- **One change** that nothing is in the way of is done. -/
theorem replayProgram_runs_carried (hdir : d.node? (batchPath batch) = some .directory)
    (hv : Valid c.kind c.ident) (ho : Offered c (d.node? (stagedPath batch n)))
    (hclear : Clear c (d.node? (stagedPath batch n)) d) :
    (replayProgram batch n c).Runs d (moveSteps batch n c d ++ discardSteps (outdated? c d)) ()
      (carried batch n c d) := by
  rw [replayProgram_eq_of_fits hclear.fits]
  exact .looked ((placing_runs hdir hv hclear.fits ho hclear.target).andThen
    (dropFile_runs (exists_file_of_outdated? ho hclear)))

/-- A change whose data is staged fails if it does not fit or a directory is in its way, unless its record
is stored under another name. -/
theorem replayProgram_refused (hdir : d.node? (batchPath batch) = some .directory)
    (hv : Valid c.kind c.ident) (hkept : c.Kept)
    (hs : d.node? (stagedPath batch n) = c.data?.map .file)
    (hblocked : ¬ Clear c (d.node? (stagedPath batch n)) d) :
    ∃ f d', (replayProgram batch n c).run.Yields d (.error f) d' := by
  by_cases htarget : c.Fits ∧ (d.node? (stagedPath batch n) ≠ none →
      d.node? [file c.kind c.ident] ≠ some .directory)
  · obtain ⟨hfits, htarget⟩ := htarget
    obtain ⟨f, hf, hdirectory⟩ : ∃ f ∈ outdated? c d, d.node? [f.name] = some .directory := by
      by_contra hnone
      exact hblocked ⟨hfits, htarget, fun f hf hn => hnone ⟨f, hf, hn⟩⟩
    rw [replayProgram_eq_of_fits hfits]
    simp only [Program.yields_looked_iff, Program.run_bind, Option.mem_def.1 hf]
    exact ⟨_, _, (placing_runs hdir hv hfits (.inr hs) htarget).yields.bind
      (dropFile_refused (by rw [node?_settledIn_outdated (.inr hs) hf]; exact hdirectory))⟩
  · cases hdata : c.data? with
    | none =>
        rw [hs, hdata] at htarget
        exact absurd ⟨fun h => absurd hdata h, fun h => absurd rfl h⟩ htarget
    | some data =>
        have hsome : c.data? ≠ none := by simp [hdata]
        rw [hdata, Option.map_some] at hs
        rw [replayProgram_eq]
        simp only [Program.yields_looked_iff, Program.run_bind]
        have hplacing : placing batch n c
            = placeStaged (batchPath batch) (Manifest.stagedName n) (file c.kind c.ident) := by
          rw [placing, hdata]; rfl
        obtain ⟨f, hf⟩ := placeStaged_refused hdir hs (file_ne_pendingName hv)
          (RecordName.file_ne_parentName _ _) (hkept hsome) fun hfile => by
            by_contra hnone
            exact htarget ⟨fun _ => hfile, fun _ => hnone⟩
        exact ⟨f, d, by rw [hplacing]; exact hf.bind_error⟩

end Running

end Repository

end RecordStore
