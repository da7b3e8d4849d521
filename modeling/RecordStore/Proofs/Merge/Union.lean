import RecordStore.Proofs.Merge.Resolve
import RecordStore.Proofs.TextOrder

/-!
# RecordStore.Proofs.Merge.Union

The union of the fields of two sides.  A field is `Contested` when the sides differ in it and neither
of them has left it as it was in the ancestor.  The value of every field is the one that it should
have (`MergesTo`): where the sides agree it is theirs, where one of them changed it is the changed
one, and where it is contested it is the winner's.

* `unionFields_yields`: the fields that are loaded, when no field is contested or there is a winner.
* `unionFields_yields_contested`: without a tie break contested fields are handed over.
* `mem_contested`, `pairwise_contested`: which fields are handed over, and in which order.
-/

namespace RecordStore

open Procedure

namespace Merge

/-! ## Values of fields -/

/-- A text or null, as which the fields of the bundled kinds stand in records. -/
def FieldValue : Json → Prop
  | .null | .str _ => True
  | _ => False

theorem same_iff {v w : Json} (hv : FieldValue v) (hw : FieldValue w) : v.same w = true ↔ v = w := by
  cases v <;> cases w <;> simp_all [FieldValue, Json.same, Json.sameNumber, Json.asInt?]

theorem fieldValue_valueOf {ms : Members} (h : ∀ m ∈ ms, FieldValue m.2) (key : Text) :
    FieldValue (valueOf ms key) := by
  unfold valueOf
  induction ms with
  | nil => trivial
  | cons m ms ih =>
      obtain ⟨k, v⟩ := m
      unfold Members.get?
      split
      · exact h (k, v) List.mem_cons_self
      · exact ih fun m hm => h m (List.mem_cons_of_mem _ hm)

theorem fieldValue_bodyFields (b : Body) (key : Text) :
    FieldValue (valueOf (Payload.bodyFields b) key) := by
  refine fieldValue_valueOf (fun m hm => ?_) key
  cases b with
  | page p =>
      simp only [Payload.bodyFields, List.mem_cons, List.not_mem_nil, or_false] at hm
      rcases hm with rfl | rfl <;> trivial
  | task t =>
      simp only [Payload.bodyFields, List.mem_cons, List.not_mem_nil, or_false] at hm
      rcases hm with rfl | rfl | rfl | rfl | rfl
      case inr.inr.inr.inr => cases t.deferredUntil <;> trivial
      all_goals trivial

theorem fields_of_bundled {p : Payload} (hp : p.Bundled) : p.fields = Payload.bodyFields p.body := by
  cases hp <;> rfl

/-! ## What a merge should give -/

section Spec

variable {mine other winner : Members} {common : Option Members} {key : Text}

/-- The sides differ in a field, and neither of them has left it as it was. -/
def Contested (mine other : Members) (common : Option Members) (key : Text) : Prop :=
  valueOf mine key ≠ valueOf other key
    ∧ ∀ a ∈ common, valueOf mine key ≠ valueOf a key ∧ valueOf other key ≠ valueOf a key

/-- The value that a field should have when two sides are merged. -/
structure MergesTo (mine other : Members) (common : Option Members) (winner : Members) (key : Text)
    (v : Json) : Prop where
  agreed : valueOf mine key = valueOf other key → v = valueOf mine key
  changedByOther : ∀ a ∈ common, valueOf mine key = valueOf a key → v = valueOf other key
  changedByMine : ∀ a ∈ common, valueOf other key = valueOf a key → v = valueOf mine key
  contested : Contested mine other common key → v = valueOf winner key

/-- Every field has the value of one of the sides. -/
theorem MergesTo.eq_or_eq {v : Json} (h : MergesTo mine other common winner key v)
    (hw : valueOf winner key = valueOf mine key ∨ valueOf winner key = valueOf other key) :
    v = valueOf mine key ∨ v = valueOf other key := by
  by_cases heq : valueOf mine key = valueOf other key
  · exact .inl (h.agreed heq)
  · by_cases hc : Contested mine other common key
    · rwa [h.contested hc]
    · obtain ⟨a, ha, hsame⟩ : ∃ a ∈ common,
          valueOf mine key = valueOf a key ∨ valueOf other key = valueOf a key := by
        by_contra hnone
        push Not at hnone
        exact hc ⟨heq, hnone⟩
      rcases hsame with hsame | hsame
      · exact .inr (h.changedByOther a ha hsame)
      · exact .inl (h.changedByMine a ha hsame)

/-- What is made of a field before contested ones are decided. -/
def settledValue? (mine other : Members) (common : Option Members) (key : Text) : Option Json :=
  settle? (valueOf mine key) (valueOf other key) (common.map (valueOf · key))

/-- Members all of whose values are values of fields. -/
structure Comparable (mine other : Members) (common : Option Members) : Prop where
  mine : ∀ key, FieldValue (valueOf mine key)
  other : ∀ key, FieldValue (valueOf other key)
  common : ∀ a ∈ common, ∀ key, FieldValue (valueOf a key)

variable (h : Comparable mine other common)
include h

/-- Contested fields are the ones that are not settled. -/
theorem Comparable.settledValue?_eq_none_iff :
    settledValue? mine other common key = none ↔ Contested mine other common key := by
  have hagree := same_iff (h.mine key) (h.other key)
  unfold settledValue? settle? Contested
  cases common with
  | none =>
      simp only [Option.map_none, Option.not_mem_none, false_imp_iff, implies_true, and_true]
      split
      · next hs => simp [hagree.1 hs]
      · next hs => simpa using fun heq => hs (hagree.2 heq)
  | some a =>
      have hmine := same_iff (h.mine key) (h.common a rfl key)
      have hother := same_iff (h.other key) (h.common a rfl key)
      simp only [Option.map_some, Option.mem_def, Option.some.injEq, forall_eq']
      split
      · next hs => simp [hagree.1 hs]
      · next hs =>
        have hne : valueOf mine key ≠ valueOf other key := fun heq => hs (hagree.2 heq)
        split
        · next hm => simp [hmine.1 hm]
        · next hm =>
          have hnem : valueOf mine key ≠ valueOf a key := fun heq => hm (hmine.2 heq)
          split
          · next ho => simp [hother.1 ho]
          · next ho =>
            have hneo : valueOf other key ≠ valueOf a key := fun heq => ho (hother.2 heq)
            simp [hne, hnem, hneo]

/-- A field that is settled, or else taken from the winner, has the value that it should have. -/
theorem Comparable.mergesTo : MergesTo mine other common winner key
    ((settledValue? mine other common key).getD (valueOf winner key)) := by
  have hagree := same_iff (h.mine key) (h.other key)
  refine ⟨fun heq => ?_, fun a ha heq => ?_, fun a ha heq => ?_, fun hc => ?_⟩
  · rw [settledValue?, settle?.eq_def, if_pos (hagree.2 heq), Option.getD_some]
  · obtain rfl : common = some a := ha
    have hmine := same_iff (h.mine key) (h.common a rfl key)
    rw [settledValue?, settle?.eq_def, Option.map_some]
    split
    · next hs => exact hagree.1 hs
    · simp only [if_pos (hmine.2 heq), Option.getD_some]
  · obtain rfl : common = some a := ha
    have hmine := same_iff (h.mine key) (h.common a rfl key)
    have hother := same_iff (h.other key) (h.common a rfl key)
    rw [settledValue?, settle?.eq_def, Option.map_some]
    split
    · rfl
    · next hs =>
      have hne : ¬ (valueOf mine key).same (valueOf a key) = true := fun hm =>
        hs (hagree.2 ((hmine.1 hm).trans heq.symm))
      simp only [if_neg hne, if_pos (hother.2 heq), Option.getD_some]
  · rw [h.settledValue?_eq_none_iff.2 hc, Option.getD_none]

end Spec

/-! ## Keys -/

section Keys

variable {mine other : Members} {common : Option Members} {key : Text}

theorem mem_allKeys : key ∈ allKeys mine other ↔ key ∈ mine.keys ∨ key ∈ other.keys := by
  rw [allKeys, (List.mergeSort_perm _ _).mem_iff, List.mem_append, List.mem_filter]
  by_cases hk : key ∈ mine.keys <;> simp [hk]

theorem nodup_allKeys (hm : mine.keys.Nodup) (ho : other.keys.Nodup) : (allKeys mine other).Nodup := by
  rw [allKeys, (List.mergeSort_perm _ _).nodup_iff, List.nodup_append]
  refine ⟨hm, ho.filter _, fun a ha b hb heq => ?_⟩
  have hnot := (List.mem_filter.1 hb).2
  rw [← heq] at hnot
  simp [ha] at hnot

theorem pairwise_allKeys : (allKeys mine other).Pairwise fun a b => a.ble b = true :=
  List.pairwise_mergeSort Text.ble_trans Text.ble_total _

/-- A key that neither side has is null on both. -/
theorem mem_allKeys_of_contested (h : Contested mine other common key) : key ∈ allKeys mine other := by
  rw [mem_allKeys]
  by_contra hnot
  rw [not_or] at hnot
  refine h.1 ?_
  rw [valueOf, valueOf, Members.get?_eq_none_iff.2 hnot.1, Members.get?_eq_none_iff.2 hnot.2]

/-- The contested fields of two sides are listed. -/
theorem mem_contested (h : Comparable mine other common) :
    key ∈ contested mine other common (allKeys mine other) ↔ Contested mine other common key := by
  rw [contested, List.mem_filter, Option.isNone_iff_eq_none]
  have hnone : settledValue? mine other common key = none ↔ Contested mine other common key :=
    h.settledValue?_eq_none_iff
  unfold settledValue? at hnone
  rw [hnone]
  exact and_iff_right_of_imp mem_allKeys_of_contested

/-- They are listed in the order of their names. -/
theorem pairwise_contested :
    (contested mine other common (allKeys mine other)).Pairwise fun a b => a.ble b = true :=
  pairwise_allKeys.filter _

/-- Without an ancestor they are the fields in which the sides differ. -/
theorem contested_none : contested mine other none (allKeys mine other) = fieldDiff mine other := by
  rw [contested, fieldDiff]
  refine List.filter_congr fun k _ => ?_
  simp only [settle?, Option.map_none]
  split
  · next hs => simp [hs]
  · next hs => simp [hs]

theorem get?_filterMap_keys (f : Text → Option Json) (keys : List Text) (key : Text) :
    Members.get? key (keys.filterMap fun k => (f k).map (k, ·)) = if key ∈ keys then f key else none := by
  induction keys with
  | nil => rfl
  | cons k keys ih =>
      by_cases hk : k = key
      · subst hk
        cases hf : f k with
        | none =>
            rw [List.filterMap_cons_none (by rw [hf]; rfl), ih]
            simp [hf]
        | some v =>
            rw [List.filterMap_cons_some (b := (k, v)) (by rw [hf]; rfl)]
            simp [Members.get?]
      · have hmem : key ∈ k :: keys ↔ key ∈ keys := by simp [Ne.symm hk]
        simp only [hmem, ← ih]
        cases hf : f k with
        | none => rw [List.filterMap_cons_none (by rw [hf]; rfl)]
        | some v =>
            rw [List.filterMap_cons_some (b := (k, v)) (by rw [hf]; rfl)]
            simp [Members.get?, hk]

/-- The members that are loaded: what is settled, and the winner's values of what is not. -/
theorem get?_merged (h : Comparable mine other common) (winner : Members)
    (hk : key ∈ allKeys mine other) :
    Members.get? key (settled mine other common (allKeys mine other)
      ++ (contested mine other common (allKeys mine other)).map fun k => (k, valueOf winner k))
      = some ((settledValue? mine other common key).getD (valueOf winner key)) := by
  have hsettled := get?_filterMap_keys (settledValue? mine other common) (allKeys mine other) key
  have hdecided := get?_filterMap_keys (fun k => some (valueOf winner k))
    (contested mine other common (allKeys mine other)) key
  rw [if_pos hk] at hsettled
  rw [Members.get?_append, settled]
  simp only [settledValue?] at hsettled
  rw [hsettled]
  cases hv : settledValue? mine other common key with
  | some v =>
      simp only [settledValue?] at hv
      rw [hv]
      rfl
  | none =>
      rw [if_pos ((mem_contested h).2 (h.settledValue?_eq_none_iff.1 hv))] at hdecided
      simp only [Option.map_some, List.filterMap_eq_map'] at hdecided
      simp only [settledValue?] at hv
      rw [hv]
      exact hdecided

end Keys

/-! ## Loading -/

section Loading

variable {a b : Body} {f : Text → Json}

/-- A value that is chosen from two values of one form has this form. -/
theorem exists_value {ms ms' : Members}
    (hf : ∀ key v, ms.get? key = some v → f key = v ∨ ms'.get? key = some (f key)) {α : Type} {g : α → Json}
    {x y : α} {key : Text} (hx : ms.get? key = some (g x)) (hy : ms'.get? key = some (g y)) :
    ∃ z, g z = f key := by
  rcases hf key _ hx with h | h
  · exact ⟨x, h.symm⟩
  · exact ⟨y, Option.some.inj (hy.symm.trans h)⟩

/-- Values that are chosen field by field from two bodies of one sort make a body of this sort. -/
theorem exists_body_of_values (hsort : a.SameSort b)
    (hf : ∀ key v, (Payload.bodyFields a).get? key = some v →
      f key = v ∨ (Payload.bodyFields b).get? key = some (f key)) :
    ∃ body : Body, a.SameSort body ∧ ∀ m ∈ Payload.bodyFields body, m.2 = f m.1 := by
  cases a with
  | page p =>
      cases b with
      | task u => cases congrArg List.length hsort
      | page q =>
          obtain ⟨name, hname⟩ : ∃ t, .str t = f "name" := exists_value hf rfl rfl
          obtain ⟨text, htext⟩ : ∃ t, .str t = f "text" := exists_value hf rfl rfl
          refine ⟨.page { name, text }, rfl, fun m hm => ?_⟩
          simp only [Payload.bodyFields, List.mem_cons, List.not_mem_nil, or_false] at hm
          rcases hm with rfl | rfl
          · exact hname
          · exact htext
  | task t =>
      cases b with
      | page q => cases congrArg List.length hsort
      | task u =>
          obtain ⟨name, hname⟩ : ∃ t, .str t = f "name" := exists_value hf rfl rfl
          obtain ⟨text, htext⟩ : ∃ t, .str t = f "text" := exists_value hf rfl rfl
          obtain ⟨context, hcontext⟩ : ∃ t, .str t = f "context" := exists_value hf rfl rfl
          obtain ⟨status, hstatus⟩ : ∃ s : Status, .str s.label = f "status" :=
            exists_value (g := fun s : Status => .str s.label) hf rfl rfl
          obtain ⟨deferredUntil, hdeferred⟩ : ∃ d, Payload.dateJson d = f "deferred_until" :=
            exists_value hf rfl rfl
          refine ⟨.task { name, text, context, status, deferredUntil }, rfl, fun m hm => ?_⟩
          simp only [Payload.bodyFields, List.mem_cons, List.not_mem_nil, or_false] at hm
          rcases hm with rfl | rfl | rfl | rfl | rfl
          · exact hname
          · exact htext
          · exact hcontext
          · exact hstatus
          · exact hdeferred

end Loading

/-! ## The merged item -/

section Union

variable {ours theirs winner : Item} {ancestor : Option Item} {c : Conflict}

/-- Items of one bundled kind. -/
structure OneKind (ours theirs : Item) (ancestor : Option Item) : Prop where
  sameSort : ours.payload.body.SameSort theirs.payload.body
  oursBundled : ours.payload.Bundled
  theirsBundled : theirs.payload.Bundled
  ancestorBundled : ∀ a ∈ ancestor, a.payload.Bundled

/-- The fields of an ancestor, if there is one. -/
def commonFields (ancestor : Option Item) : Option Members := ancestor.map fun i => i.payload.fields

theorem OneKind.comparable (h : OneKind ours theirs ancestor) :
    Comparable ours.payload.fields theirs.payload.fields (commonFields ancestor) := by
  refine ⟨fun key => ?_, fun key => ?_, fun a ha key => ?_⟩
  · rw [fields_of_bundled h.oursBundled]
    exact fieldValue_bodyFields _ key
  · rw [fields_of_bundled h.theirsBundled]
    exact fieldValue_bodyFields _ key
  · obtain ⟨i, hi, rfl⟩ := Option.mem_map.1 ha
    rw [fields_of_bundled (h.ancestorBundled i hi)]
    exact fieldValue_bodyFields _ key

/-- The names of the contested fields, in order. -/
def contestedFields (ours theirs : Item) (ancestor : Option Item) : List Text :=
  contested ours.payload.fields theirs.payload.fields (commonFields ancestor)
    (allKeys ours.payload.fields theirs.payload.fields)

/-- The fields that are loaded when contested ones go to a winner. -/
def unitedFields (ours theirs : Item) (ancestor : Option Item) (winner : Item) : Members :=
  settled ours.payload.fields theirs.payload.fields (commonFields ancestor)
      (allKeys ours.payload.fields theirs.payload.fields)
    ++ (contestedFields ours theirs ancestor).map fun k => (k, valueOf winner.payload.fields k)

theorem valueOf_of_get? {ms : Members} {key : Text} {v : Json} (h : ms.get? key = some v) :
    valueOf ms key = v := by
  rw [valueOf, h, Option.getD_some]

theorem valueOf_of_not_mem {ms : Members} {key : Text} (h : key ∉ ms.keys) : valueOf ms key = .null := by
  rw [valueOf, Members.get?_eq_none_iff.2 h, Option.getD_none]

/-- The value of a field that is loaded when contested ones go to a winner. -/
def unitedValue (ours theirs : Item) (ancestor : Option Item) (winner : Item) (key : Text) : Json :=
  (settledValue? ours.payload.fields theirs.payload.fields (commonFields ancestor) key).getD
    (valueOf winner.payload.fields key)

theorem OneKind.mergesTo_unitedValue (h : OneKind ours theirs ancestor) (winner : Item) (key : Text) :
    MergesTo ours.payload.fields theirs.payload.fields (commonFields ancestor) winner.payload.fields key
      (unitedValue ours theirs ancestor winner key) := h.comparable.mergesTo

theorem OneKind.get?_unitedFields (h : OneKind ours theirs ancestor) {key : Text}
    (hkey : key ∈ ours.payload.fields.keys) : (unitedFields ours theirs ancestor winner).get? key
      = some (unitedValue ours theirs ancestor winner key) :=
  get?_merged h.comparable _ (mem_allKeys.2 (.inl hkey))

/-- Some body of the sides' sort has the united values. -/
theorem OneKind.exists_unitedBody (h : OneKind ours theirs ancestor)
    (hw : winner = ours ∨ winner = theirs) : ∃ body : Body, ours.payload.body.SameSort body
      ∧ ∀ m ∈ Payload.bodyFields body, m.2 = unitedValue ours theirs ancestor winner m.1 := by
  refine exists_body_of_values h.sameSort fun key v hv => ?_
  obtain ⟨w, hother⟩ : ∃ w, (Payload.bodyFields theirs.payload.body).get? key = some w := by
    refine Option.ne_none_iff_exists'.1 fun hnone => ?_
    have hmem : key ∈ (Payload.bodyFields ours.payload.body).keys :=
      List.mem_map_of_mem (Members.mem_of_get? hv)
    rw [h.sameSort] at hmem
    exact Members.get?_eq_none_iff.1 hnone hmem
  have hchoice := (h.mergesTo_unitedValue winner key).eq_or_eq (by rcases hw with rfl | rfl <;> simp)
  rw [fields_of_bundled h.oursBundled, fields_of_bundled h.theirsBundled, valueOf_of_get? hv,
    valueOf_of_get? hother] at hchoice
  rcases hchoice with hc | hc
  · exact .inl hc
  · exact .inr (by rw [hother, hc])

section UnitedBody

variable {body : Body} (hbody : ours.payload.body.SameSort body)
  (hvalue : ∀ m ∈ Payload.bodyFields body, m.2 = unitedValue ours theirs ancestor winner m.1)
include hbody hvalue

/-- A body with the united values is what the united fields are loaded as. -/
theorem OneKind.loadBody_united (h : OneKind ours theirs ancestor) :
    Payload.loadBody ours.payload.kind (unitedFields ours theirs ancestor winner) ours.payload.body
      = .ok body := by
  refine loadBody_of_get? hbody fun key v hv => ?_
  have hmem := Members.mem_of_get? hv
  have hkey : key ∈ ours.payload.fields.keys := by
    rw [fields_of_bundled h.oursBundled, hbody]
    exact List.mem_map_of_mem hmem
  rw [h.get?_unitedFields hkey]
  exact congrArg some (hvalue _ hmem).symm

/-- A body with the united values has them in every field, also in those that it lacks. -/
theorem OneKind.valueOf_united (h : OneKind ours theirs ancestor) (key : Text) :
    valueOf (Payload.bodyFields body) key = unitedValue ours theirs ancestor winner key := by
  by_cases hmem : key ∈ (Payload.bodyFields body).keys
  · obtain ⟨v, hv⟩ := Option.ne_none_iff_exists'.1 fun hnone => Members.get?_eq_none_iff.1 hnone hmem
    rw [valueOf_of_get? hv]
    exact hvalue _ (Members.mem_of_get? hv)
  · have hours : key ∉ ours.payload.fields.keys := by rwa [fields_of_bundled h.oursBundled, hbody]
    have htheirs : key ∉ theirs.payload.fields.keys := by
      rwa [fields_of_bundled h.theirsBundled, ← h.sameSort, hbody]
    have hnull := (h.mergesTo_unitedValue winner key).agreed
      (by rw [valueOf_of_not_mem hours, valueOf_of_not_mem htheirs])
    rw [valueOf_of_not_mem hmem, hnull, valueOf_of_not_mem hours]

end UnitedBody

/-- The united fields are loaded into our payload, each with the value that it should have. -/
theorem OneKind.loadInto_yields (h : OneKind ours theirs ancestor) (hw : winner = ours ∨ winner = theirs) :
    ∃ payload, (loadInto ours (unitedFields ours theirs ancestor winner)).Yields ()
        (.ok { ours with payload }) ()
      ∧ ∀ key, MergesTo ours.payload.fields theirs.payload.fields (commonFields ancestor)
        winner.payload.fields key (valueOf payload.fields key) := by
  obtain ⟨body, hbody, hvalue⟩ := h.exists_unitedBody hw
  refine ⟨{ kind := ours.payload.kind, body }, ?_, fun key => ?_⟩
  · have hyields := load_yields ours.payload.kind ours.payload.body
      (unitedFields ours theirs ancestor winner)
    rw [h.loadBody_united hbody hvalue, ← h.oursBundled.eq] at hyields
    exact hyields.runOn.bind (yields_pure _ _)
  · have hfields : Payload.fields { kind := ours.payload.kind, body } = Payload.bodyFields body :=
      List.append_nil _
    rw [hfields, h.valueOf_united hbody hvalue]
    exact h.mergesTo_unitedValue winner key

/-- **Union.** When no field is contested, or contested ones go to a winner, every field of the merged
item has the value that it should have. -/
theorem OneKind.unionFields_yields (h : OneKind ours theirs ancestor) (c : Conflict) (tieBreak : Bool)
    (hdecided : contestedFields ours theirs ancestor = [] ∧ winner = ours
      ∨ contestedFields ours theirs ancestor ≠ [] ∧ tieBreak = true
        ∧ pickLater ours theirs c = .ok winner) :
    ∃ payload, (unionFields tieBreak ours theirs ancestor c).Yields () (.ok { ours with payload }) ()
      ∧ ∀ key, MergesTo ours.payload.fields theirs.payload.fields (commonFields ancestor)
        winner.payload.fields key (valueOf payload.fields key) := by
  rcases hdecided with ⟨hnone, rfl⟩ | ⟨hsome, rfl, hpick⟩
  · obtain ⟨payload, hload, hmerges⟩ := h.loadInto_yields (.inl rfl)
    refine ⟨payload, ?_, hmerges⟩
    rw [unitedFields, hnone] at hload
    have hempty := List.isEmpty_iff.2 hnone
    unfold contestedFields commonFields at hempty
    unfold unionFields
    simp only [hempty, if_true]
    exact (yields_pure _ _).bind hload
  · obtain ⟨payload, hload, hmerges⟩ := h.loadInto_yields (pickLater_ok hpick).symm
    refine ⟨payload, ?_, hmerges⟩
    have hnonempty := List.isEmpty_eq_false_iff.2 hsome
    unfold contestedFields commonFields at hnonempty
    unfold unionFields
    simp only [hnonempty, Bool.false_eq_true, if_false, if_true, hpick]
    exact yields_ofExcept_ok_bind_iff.2 (yields_report_bind_iff.2 ((yields_pure _ _).bind hload))

/-- Without a tie break contested fields are handed over. -/
theorem unionFields_yields_contested (hsome : contestedFields ours theirs ancestor ≠ []) :
    (unionFields false ours theirs ancestor c).Yields ()
      (.error (c.escalation .contested (contestedFields ours theirs ancestor))) () := by
  have hnonempty := List.isEmpty_eq_false_iff.2 hsome
  unfold contestedFields commonFields at hnonempty
  unfold unionFields
  simp only [hnonempty, Bool.false_eq_true, if_false]
  exact (yields_fail _ _).bind_error

/-- With a tie break contested fields need a winner. -/
theorem unionFields_yields_error (hsome : contestedFields ours theirs ancestor ≠ []) {e : Failure}
    (he : pickLater ours theirs c = .error e) :
    (unionFields true ours theirs ancestor c).Yields () (.error e) () := by
  have hnonempty := List.isEmpty_eq_false_iff.2 hsome
  unfold contestedFields commonFields at hnonempty
  unfold unionFields
  simp only [hnonempty, Bool.false_eq_true, if_false, if_true, he]
  exact (yields_fail _ _).bind_error

theorem nodup_keys_fields {p : Payload} (hp : p.Bundled) : p.fields.keys.Nodup := by
  rw [fields_of_bundled hp]
  cases p.body with
  | page b =>
      have hkeys : (["name", "text"] : List Text).Nodup := by decide
      exact hkeys
  | task t =>
      have hkeys : (["name", "text", "context", "status", "deferred_until"] : List Text).Nodup := by decide
      exact hkeys

/-- The contested fields, each once and in order. -/
theorem OneKind.contestedFields_spec (h : OneKind ours theirs ancestor) :
    (contestedFields ours theirs ancestor).Pairwise (fun a b => a.ble b = true)
      ∧ (contestedFields ours theirs ancestor).Nodup
      ∧ (∀ key, key ∈ contestedFields ours theirs ancestor
        ↔ Contested ours.payload.fields theirs.payload.fields (commonFields ancestor) key)
      ∧ (ancestor = none →
        contestedFields ours theirs ancestor = fieldDiff ours.payload.fields theirs.payload.fields) := by
  refine ⟨pairwise_contested, ?_, fun key => mem_contested h.comparable, ?_⟩
  · exact (nodup_allKeys (nodup_keys_fields h.oursBundled) (nodup_keys_fields h.theirsBundled)).filter _
  · rintro rfl
    exact contested_none

/-- Whether some field is contested. -/
theorem OneKind.contestedFields_ne_nil_iff (h : OneKind ours theirs ancestor) :
    contestedFields ours theirs ancestor ≠ []
      ↔ ∃ key, Contested ours.payload.fields theirs.payload.fields (commonFields ancestor) key := by
  rw [Ne, List.eq_nil_iff_forall_not_mem, not_forall_not]
  exact exists_congr fun key => mem_contested h.comparable

end Union

end Merge

end RecordStore
