import Mathlib.Data.List.TakeWhile
import RecordStore.Conflict
import RecordStore.Proofs.FileName
import RecordStore.Proofs.RecordName

/-!
# RecordStore.Proofs.Conflict

Which paths name a conflict.  The last name of the path is cut at its ending, whatever the ending is,
and what is left must be the stem of a record (`Conflict.make_outcome`).  So the path of every record
file names a conflict, with the kind and the identifier of the record; and among the paths that end as
record files do, no other one does.
-/

namespace RecordStore

namespace RecordName

variable {name front front' back back' : Text}

/-! ## Endings -/

/-- An ending of a file name: a point with some characters behind it, none of which is a point. -/
def Ending (ending : Text) : Prop := ∃ rest, ending = .char '.' :: rest ∧ rest ≠ [] ∧ .char '.' ∉ rest

/-- A file name and its stem.  An ending is cut off; a name that is nothing but an ending, or has none, is
its own stem. -/
inductive HasStem : Text → Text → Prop
  | cut {stem ending : Text} (hne : stem ≠ []) (h : Ending ending) : HasStem (stem ++ ending) stem
  | whole {name : Text} (h : ∀ stem ending, Ending ending → name = stem ++ ending → stem = []) :
      HasStem name name

theorem ending_suffix : Ending suffix := ⟨"json", rfl, by decide, by decide⟩

/-- A name with a point has a last one. -/
theorem exists_last_point (h : .char '.' ∈ name) :
    ∃ front back, name = front ++ .char '.' :: back ∧ .char '.' ∉ back := by
  obtain ⟨behind, before, hname, hbehind⟩ := List.eq_append_cons_of_mem (List.mem_reverse.2 h)
  refine ⟨before.reverse, behind.reverse, ?_, by simpa using hbehind⟩
  simpa using congrArg List.reverse hname

/-- No character of a text is a point. -/
theorem all_ne_point (h : .char '.' ∉ back) : ∀ g ∈ back.reverse, decide (g ≠ .char '.') = true := by
  intro g hg
  refine decide_eq_true fun heq => h ?_
  rwa [heq, List.mem_reverse] at hg

/-- What stands behind the last point of a name. -/
theorem takeWhile_reverse (h : .char '.' ∉ back) :
    (front ++ .char '.' :: back).reverse.takeWhile (· ≠ .char '.') = back.reverse := by
  rw [List.reverse_append, List.reverse_cons, List.append_assoc,
    List.takeWhile_append_of_pos (all_ne_point h)]
  simp

/-- A name has no two last points. -/
theorem append_point_inj (h : front ++ .char '.' :: back = front' ++ .char '.' :: back')
    (hback : .char '.' ∉ back) (hback' : .char '.' ∉ back') : front = front' ∧ back = back' := by
  have hbehind := congrArg (fun name => name.reverse.takeWhile (· ≠ Glyph.char '.')) h
  simp only [takeWhile_reverse hback, takeWhile_reverse hback'] at hbehind
  obtain rfl := List.reverse_injective hbehind
  exact ⟨List.append_cancel_right h, rfl⟩

theorem HasStem.unique (h : HasStem name front) (h' : HasStem name front') : front = front' := by
  cases h with
  | cut hne he =>
      generalize hname : front ++ _ = name at h'
      cases h' with
      | cut hne' he' =>
          obtain ⟨back, rfl, -, hback⟩ := he
          obtain ⟨back', rfl, -, hback'⟩ := he'
          exact (append_point_inj hname hback hback').1
      | whole h' => exact absurd (h' _ _ he hname.symm) hne
  | whole h =>
      cases h' with
      | cut hne' he' => exact absurd (h _ _ he' rfl) hne'
      | whole h' => rfl

/-- A name begins with its stem. -/
theorem HasStem.isPrefix (h : HasStem name front) : front <+: name := by
  cases h with
  | cut hne he => exact List.prefix_append _ _
  | whole h => exact List.prefix_rfl

/-! ## Paths -/

/-- The name at the end of a path. -/
def lastName (path : Text) : Text := (Path.ofText path).getLast?.getD []

/-- The name at the end of a path holds no slash. -/
theorem slash_not_mem_lastName (path : Text) : .char '/' ∉ lastName path := by
  unfold lastName
  cases h : (Path.ofText path).getLast? with
  | none => exact List.not_mem_nil
  | some name =>
      exact (Path.ofText_eq_singleton_iff.1 (Path.of_mem_ofText (List.mem_of_getLast? h))).1

/-- The stem of a path is the one of its last name. -/
theorem hasStem_pathStem (path : Text) : HasStem (lastName path) (pathStem path) := by
  unfold pathStem lastName
  generalize (Path.ofText path).getLast?.getD [] = name
  by_cases hpoint : .char '.' ∈ name
  · obtain ⟨front, back, rfl, hback⟩ := exists_last_point hpoint
    have hcut : (front ++ .char '.' :: back).length - back.reverse.length - 1 = front.length := by
      rw [List.length_append, List.length_cons, List.length_reverse]
      omega
    simp only [takeWhile_reverse hback, hcut]
    split
    · next hwhole =>
      -- There is nothing behind the point, or nothing before it.
      refine .whole fun front' ending he hname => ?_
      obtain ⟨back', rfl, hne, hback'⟩ := he
      obtain ⟨rfl, rfl⟩ := append_point_inj hname hback hback'
      obtain hlength | hnil | hzero := hwhole
      · rw [List.length_append, List.length_cons, List.length_reverse] at hlength
        omega
      · exact absurd (List.reverse_eq_nil_iff.1 hnil) hne
      · exact List.length_eq_zero_iff.1 hzero
    · next hcut =>
      rw [List.take_left]
      refine .cut ?_ ⟨back, rfl, ?_, hback⟩ <;> rintro rfl <;> simp at hcut
  · have hbehind : name.reverse.takeWhile (· ≠ .char '.') = name.reverse :=
      List.takeWhile_eq_self_iff.2 (all_ne_point hpoint)
    simp only [hbehind, List.length_reverse, true_or, if_true]
    refine .whole fun front ending he hname => absurd ?_ hpoint
    obtain ⟨back, rfl, -⟩ := he
    simp [hname]

/-- A stem of a path's last name is the one that is taken from the path. -/
theorem hasStem_lastName_iff {path : Text} : HasStem (lastName path) front ↔ pathStem path = front := by
  constructor
  · exact fun h => (hasStem_pathStem path).unique h
  · rintro rfl
    exact hasStem_pathStem path

variable {kind ident : Text}

/-- The name of a record file has the stem of the record. -/
theorem hasStem_file (hv : Valid kind ident) : HasStem (file kind ident) (stem kind ident) :=
  .cut (by simp [stem, hv.kind_ne_nil]) ending_suffix

/-- A name that ends as record files do, and has the stem of a record, is the name of its file. -/
theorem eq_file_of_hasStem (hv : Valid kind ident) (h : HasStem name (stem kind ident))
    (hsuffix : suffix <:+ name) : name = file kind ident := by
  obtain ⟨front, rfl⟩ := hsuffix
  by_cases hne : front = []
  · -- A name that is nothing but the ending is its own stem, and holds no separator.
    subst hne
    have hstem : pathStem suffix = stem kind ident := hasStem_lastName_iff.1 h
    have hnone : split? (pathStem suffix) = none := by decide
    cases hnone.symm.trans (split?_eq_some_iff.2 ⟨hv, hstem⟩)
  · rw [(HasStem.cut hne ending_suffix).unique h, file]

end RecordName

namespace Conflict

open RecordName

variable {path kind ident : Text} {ours theirs ancestor : Option Bytes} {c : Conflict}

/-- A conflict about a record whose name is one that a file can have. -/
def Storable (c : Conflict) : Prop := Path.IsFileName (file c.kind c.ident)

instance (c : Conflict) : Decidable c.Storable :=
  inferInstanceAs (Decidable (Path.IsFileName (file c.kind c.ident)))

/-- The kind and the identifier of a conflict are those of a record. -/
theorem valid (c : Conflict) : Valid c.kind c.ident := by
  obtain ⟨path, h⟩ := c.named
  exact (ofStem_eq_ok_iff.1 h).1

/-- There is no slash in the name of the record that a conflict is about. -/
theorem slash_not_mem (c : Conflict) : .char '/' ∉ file c.kind c.ident := by
  obtain ⟨path, h⟩ := c.named
  have hstem := hasStem_lastName_iff.2 (ofStem_eq_ok_iff.1 h).2
  intro hmem
  rcases List.mem_append.1 hmem with hmem | hmem
  · exact slash_not_mem_lastName path (hstem.isPrefix.subset hmem)
  · exact absurd hmem (by decide)

theorem make_of_hasStem (hv : Valid kind ident) (h : HasStem (lastName path) (stem kind ident))
    (ours theirs ancestor : Option Bytes) :
    ∃ named, make path ours theirs ancestor = .ok ⟨kind, ident, ours, theirs, ancestor, named⟩ := by
  have hstem : ofStem (pathStem path) = .ok (kind, ident) :=
    ofStem_eq_ok_iff.2 ⟨hv, hasStem_lastName_iff.1 h⟩
  refine ⟨⟨path, hstem⟩, ?_⟩
  unfold make
  split
  · next hok =>
    cases hstem.symm.trans hok
    rfl
  · next herror => cases hstem.symm.trans herror

theorem make_eq_ok_iff : make path ours theirs ancestor = .ok c ↔ Valid c.kind c.ident
    ∧ HasStem (lastName path) (stem c.kind c.ident)
    ∧ c = ⟨c.kind, c.ident, ours, theirs, ancestor, c.named⟩ := by
  constructor
  · intro h
    unfold make at h
    split at h
    · next kind ident hok =>
      cases h
      obtain ⟨hv, hstem⟩ := ofStem_eq_ok_iff.1 hok
      exact ⟨hv, hasStem_lastName_iff.2 hstem, rfl⟩
    · cases h
  · rintro ⟨hv, hstem, hc⟩
    obtain ⟨_, h⟩ := make_of_hasStem hv hstem ours theirs ancestor
    exact h.trans (congrArg Except.ok hc.symm)

theorem eq_of_make_eq_error {e : Failure} (h : make path ours theirs ancestor = .error e) :
    e = .deserialization (.notARecordPath path) := by
  unfold make at h
  split at h <;> cases h
  rfl

theorem make_eq_error_iff {e : Failure} : make path ours theirs ancestor = .error e
    ↔ e = .deserialization (.notARecordPath path)
      ∧ ∀ kind ident, Valid kind ident → ¬ HasStem (lastName path) (stem kind ident) := by
  constructor
  · intro h
    refine ⟨eq_of_make_eq_error h, fun kind ident hv hstem => ?_⟩
    obtain ⟨_, hok⟩ := make_of_hasStem hv hstem ours theirs ancestor
    cases hok.symm.trans h
  · rintro ⟨rfl, hnone⟩
    cases h : make path ours theirs ancestor with
    | ok c =>
        obtain ⟨hv, hstem, -⟩ := make_eq_ok_iff.1 h
        exact absurd hstem (hnone _ _ hv)
    | error e => rw [eq_of_make_eq_error h]

/-- **Paths of conflicts.** A conflict is made exactly when the last name of its path has the stem of a
record, and it has the kind and the identifier of that record; every other path is refused.  The path of
a record file names a conflict, and no other one does that ends as record files do. -/
theorem make_outcome (path : Text) (ours theirs ancestor : Option Bytes) :
    (∀ c, make path ours theirs ancestor = .ok c ↔ Valid c.kind c.ident
        ∧ HasStem (lastName path) (stem c.kind c.ident)
        ∧ c = ⟨c.kind, c.ident, ours, theirs, ancestor, c.named⟩)
      ∧ (∀ e, make path ours theirs ancestor = .error e ↔ e = .deserialization (.notARecordPath path)
        ∧ ∀ kind ident, Valid kind ident → ¬ HasStem (lastName path) (stem kind ident))
      ∧ (∀ kind ident, Valid kind ident → lastName path = file kind ident →
        ∃ named, make path ours theirs ancestor = .ok ⟨kind, ident, ours, theirs, ancestor, named⟩)
      ∧ (suffix <:+ lastName path → ∀ c, make path ours theirs ancestor = .ok c →
        lastName path = file c.kind c.ident) := by
  refine ⟨fun c => make_eq_ok_iff, fun e => make_eq_error_iff, ?_, ?_⟩
  · intro kind ident hv hname
    exact make_of_hasStem hv (hname ▸ hasStem_file hv) ours theirs ancestor
  · intro hsuffix c h
    obtain ⟨hv, hstem, -⟩ := make_eq_ok_iff.1 h
    exact eq_file_of_hasStem hv hstem hsuffix

/-- A record file in a directory names the conflict of its record, with a point in the identifier. -/
theorem make_outcome_pointed : ∃ named, make "items/task-@x.1.json" none none none
    = .ok ⟨"task", "x.1", none, none, none, named⟩ :=
  (make_outcome "items/task-@x.1.json" none none none).2.2.1 "task" "x.1" (by decide) (by decide)

/-- A file with another ending is the file of no record, and names the conflict of a record. -/
theorem make_other_ending :
    (∀ kind ident, lastName "simple-@a.txt" ≠ file kind ident)
      ∧ make "simple-@a.txt" (some []) (some []) none
        = .ok ⟨"simple", "a", some [], some [], none, "simple-@a.json", rfl⟩
      ∧ make "simple-@a.txt" (some []) (some []) none = make "simple-@a.json" (some []) (some []) none := by
  refine ⟨fun kind ident hname => ?_, rfl, rfl⟩
  have hsuffix : suffix <:+ lastName "simple-@a.txt" := ⟨stem kind ident, hname.symm⟩
  exact absurd hsuffix (by decide)

end Conflict

end RecordStore
