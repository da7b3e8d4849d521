import RecordStore.Proofs.Procedure
import RecordStore.Proofs.TextOrder
import RecordStore.Registry

/-!
# RecordStore.Proofs.Registry

What becomes of a registry of kinds, whatever is asked of it: kinds are registered and looked up, items
are made, and the registry is frozen, in any order.  Each request has one of the effects that `Effect`
lists (`Request.effect`), and nothing but a kind that the registry `Admits` gets into it.  By induction
over the requests the registry stays `Sound`, what is found for a kind is found ever after
(`get_after`), and a frozen registry stays as it is (`after_of_frozen`).
-/

namespace RecordStore.Registry

open Procedure

variable {r r' : Registry} {kind : Text} {tag : Kind} {p : KindPolicy} {merge : MergePolicy}
  {e : Registration}

/-! ## Looking kinds up -/

theorem get_eq_ok_iff : r.get kind = .ok e ↔ r.find? kind = some e := by
  rw [get]
  cases r.find? kind <;> simp

theorem exists_get_of_has (h : r.has kind = true) : ∃ e, r.get kind = .ok e := by
  obtain ⟨e, he⟩ := Option.isSome_iff_exists.1 h
  exact ⟨e, by rw [get, he]⟩

theorem get_of_has_eq_false (h : r.has kind = false) :
    r.get kind = .error (.configuration (.unregistered kind)) := by
  have hnone : r.find? kind = none := by
    cases hf : r.find? kind with
    | none => rfl
    | some e => rw [has, hf] at h; cases h
  rw [get, hnone]

theorem has_of_get (h : r.get kind = .ok e) : r.has kind = true := by
  cases hhas : r.has kind with
  | true => rfl
  | false => cases (get_of_has_eq_false hhas).symm.trans h

/-- A kind is there just when it is found. -/
theorem has_iff_exists_get : r.has kind = true ↔ ∃ e, r.get kind = .ok e :=
  ⟨exists_get_of_has, fun ⟨_, h⟩ => has_of_get h⟩

/-- What is found for a kind is a registration of this kind. -/
theorem mem_of_get (h : r.get kind = .ok e) : e ∈ r.registrations ∧ e.tag.name = kind := by
  have hfind := get_eq_ok_iff.1 h
  exact ⟨List.mem_of_find?_eq_some hfind, by simpa using List.find?_some hfind⟩

/-- The kinds that are listed are those that are found. -/
theorem mem_kinds_iff : kind ∈ r.kinds.map Kind.name ↔ ∃ e, r.get kind = .ok e := by
  rw [← has_iff_exists_get, has, find?, List.find?_isSome]
  simp [kinds]

/-! ## Sound registries -/

/-- A registry in which every kind has a name and one registration, with a policy of its own and the
rule for merging of that policy. -/
structure Sound (r : Registry) : Prop where
  named : ∀ e ∈ r.registrations, e.tag.name ≠ []
  own : ∀ e ∈ r.registrations, e.policy.kind.name = e.tag.name
  merges : ∀ e ∈ r.registrations, e.policy.merge? = some e.merge
  distinct : (r.registrations.map fun e => e.tag.name).Nodup

theorem sound_empty : Sound {} := by
  constructor <;> simp

/-- The kinds of a sound registry are listed in strict order. -/
theorem Sound.sorted (h : r.Sound) :
    r.kinds.Pairwise fun a b => a.name.ble b.name = true ∧ a.name ≠ b.name := by
  have hsorted : r.kinds.Pairwise fun a b => a.name.ble b.name = true :=
    List.pairwise_mergeSort (fun a b c => Text.ble_trans a.name b.name c.name)
      (fun a b => Text.ble_total a.name b.name) _
  have hperm : r.kinds.Perm (r.registrations.map Registration.tag) := List.mergeSort_perm _ _
  have hnames : (r.kinds.map Kind.name).Nodup := by
    rw [(hperm.map Kind.name).nodup_iff, List.map_map]
    exact h.distinct
  exact hsorted.and (List.pairwise_map.1 hnames)

/-! ## Registering kinds -/

/-- What a registry takes: it is not frozen and does not have the kind, which is not empty; the policy
is one for this kind, and has a rule for merging. -/
structure Admits (r : Registry) (tag : Kind) (p : KindPolicy) (merge : MergePolicy) : Prop where
  opened : r.frozen = false
  named : tag.name ≠ []
  missing : r.has tag.name = false
  own : p.kind.name = tag.name
  merges : p.merge? = some merge

/-- The registry with a further kind. -/
def adding (e : Registration) (r : Registry) : Registry :=
  { r with registrations := r.registrations ++ [e] }

/-- A kind that the registry takes is registered. -/
theorem register_yields (h : r.Admits tag p merge) :
    (register tag p).Yields r (.ok ()) (r.adding ⟨tag, p, merge⟩) := by
  unfold register
  refine yields_state_bind_iff.2 ?_
  rw [if_neg (by simp [h.opened]), if_neg (by simp [h.named]), if_neg (by simp [h.missing]),
    if_neg (by simp [Kind.same, h.own]), h.merges]
  exact (yields_put _ _).bind (yields_report _ _)

/-- Every other one is refused, before anything is changed. -/
theorem register_yields_refused (h : ∀ merge, ¬ r.Admits tag p merge) :
    ∃ fault, (register tag p).Yields r (.error (.configuration fault)) r := by
  unfold register
  simp only [yields_state_bind_iff]
  split
  · exact ⟨_, yields_fail _ _⟩
  next hopened =>
  split
  · exact ⟨_, yields_fail _ _⟩
  next hnamed =>
  split
  · exact ⟨_, yields_fail _ _⟩
  next hmissing =>
  split
  · exact ⟨_, yields_fail _ _⟩
  next hown =>
  split
  · exact ⟨_, yields_fail _ _⟩
  next merge hmerge =>
  refine absurd ⟨?_, ?_, ?_, ?_, hmerge⟩ (h merge)
  · simpa using hopened
  · simpa using hnamed
  · simpa using hmissing
  · simpa [Kind.same] using hown

theorem register_yields_ok_iff : (register tag p).Yields r (.ok ()) r'
    ↔ ∃ merge, r.Admits tag p merge ∧ r' = r.adding ⟨tag, p, merge⟩ := by
  constructor
  · intro h
    by_cases hadmits : ∃ merge, r.Admits tag p merge
    · obtain ⟨merge, hm⟩ := hadmits
      exact ⟨merge, hm, (h.unique (register_yields hm)).2⟩
    · obtain ⟨fault, hfault⟩ := register_yields_refused (not_exists.1 hadmits)
      cases (h.unique hfault).1
  · rintro ⟨merge, hm, rfl⟩
    exact register_yields hm

/-- A kind that is added is found where none of its name was found before. -/
theorem find?_adding (e : Registration) (r : Registry) (kind : Text) :
    (r.adding e).find? kind = (r.find? kind).or (if e.tag.name = kind then some e else none) := by
  rw [find?, adding, List.find?_append]
  by_cases h : e.tag.name = kind <;> simp [find?, h]

/-- A further kind leaves the others as they are. -/
theorem get_adding (h : r.get kind = .ok e) (e' : Registration) : (r.adding e').get kind = .ok e := by
  rw [get_eq_ok_iff] at h ⊢
  rw [find?_adding, h, Option.some_or]

theorem Admits.find?_eq_none (h : r.Admits tag p merge) : r.find? tag.name = none := by
  simpa [has] using h.missing

/-- A kind that is registered was not found before. -/
theorem Admits.get_ne_ok (h : r.Admits tag p merge) : r.get tag.name ≠ .ok e := by
  simp [get_eq_ok_iff, h.find?_eq_none]

/-- It is found from then on. -/
theorem Admits.get_adding (h : r.Admits tag p merge) :
    (r.adding ⟨tag, p, merge⟩).get tag.name = .ok ⟨tag, p, merge⟩ := by
  simp [get_eq_ok_iff, find?_adding, h.find?_eq_none]

theorem Sound.adding (h : r.Sound) (hm : r.Admits tag p merge) : (r.adding ⟨tag, p, merge⟩).Sound where
  named := List.forall_mem_append.2 ⟨h.named, by simpa using hm.named⟩
  own := List.forall_mem_append.2 ⟨h.own, by simpa using hm.own⟩
  merges := List.forall_mem_append.2 ⟨h.merges, by simpa using hm.merges⟩
  distinct := by
    have hmissing : ∀ e ∈ r.registrations, e.tag.name ≠ tag.name := by
      simpa [find?] using hm.find?_eq_none
    simp only [Registry.adding, List.map_append, List.map_cons, List.map_nil, List.nodup_append]
    exact ⟨h.distinct, by simp, by simpa using hmissing⟩

/-! ## Requests -/

/-- What can be looked up in a registry, or made with its policies. -/
inductive Query where
  | get (kind : Text)
  | make (kind ident : Text) (user : Option Text)
  | has (kind : Text)
  | kinds

/-- What can be asked of a registry. -/
inductive Request where
  | register (tag : Kind) (p : KindPolicy)
  | freeze
  | look (query : Query)

/-- What a request is answered with. -/
inductive Answer where
  | done
  | registration (e : Registration)
  | item (i : Item)
  | present (b : Bool)
  | tags (kinds : List Kind)

/-- What is found in a registry. -/
def Query.answer : Query → Registry → Except Failure Answer
  | get kind, r => .registration <$> r.get kind
  | make kind ident user, r => .item <$> r.makeItem kind ident user
  | has kind, r => .ok (.present (r.has kind))
  | kinds, r => .ok (.tags r.kinds)

/-- What a request does with a registry. -/
def Request.perform : Request → Procedure Registry Answer
  | register tag p => do
    Registry.register tag p
    return .done
  | freeze => do
    Procedure.modify Registry.freeze
    return .done
  | look query => do
    Procedure.ofExcept (query.answer (← Procedure.state))

/-- What a request comes to. -/
inductive Effect (r : Registry) (request : Request) : Except Failure Answer → Registry → Prop where
  /-- The kind is registered. -/
  | added (tag : Kind) (p : KindPolicy) (merge : MergePolicy) : request = .register tag p →
      r.Admits tag p merge → Effect r request (.ok .done) (r.adding ⟨tag, p, merge⟩)
  /-- The kind is not taken. -/
  | refused (tag : Kind) (p : KindPolicy) (fault : ConfigurationFault) : request = .register tag p →
      (∀ merge, ¬ r.Admits tag p merge) → Effect r request (.error (.configuration fault)) r
  /-- The registry is frozen. -/
  | closed : request = .freeze → Effect r request (.ok .done) r.freeze
  /-- The registry is looked at. -/
  | looked (query : Query) : request = .look query → Effect r request (query.answer r) r

/-- **Step.** Every request has one of the effects. -/
theorem Request.effect {request : Request} {x : Except Failure Answer}
    (h : request.perform.Yields r x r') : Effect r request x r' := by
  cases request with
  | register tag p =>
      by_cases hadmits : ∃ merge, r.Admits tag p merge
      · obtain ⟨merge, hm⟩ := hadmits
        obtain ⟨rfl, rfl⟩ := h.unique ((register_yields hm).bind (yields_pure _ _))
        exact .added tag p merge rfl hm
      · obtain ⟨fault, hfault⟩ := register_yields_refused (not_exists.1 hadmits)
        obtain ⟨rfl, rfl⟩ := h.unique hfault.bind_error
        exact .refused tag p fault rfl (not_exists.1 hadmits)
  | freeze =>
      obtain ⟨rfl, rfl⟩ := h.unique ((yields_modify Registry.freeze r).bind (yields_pure _ _))
      exact .closed rfl
  | look query =>
      obtain ⟨rfl, rfl⟩ := h.unique (yields_state_bind_iff.2 (yields_ofExcept (query.answer r) r))
      exact .looked query rfl

section Effects

variable {request : Request} {x : Except Failure Answer} (h : Effect r request x r')
include h

/-- **Step.** A sound registry stays sound. -/
theorem Effect.sound (hr : r.Sound) : r'.Sound := by
  cases h with
  | added tag p merge _ hm => exact hr.adding hm
  | closed => exact ⟨hr.named, hr.own, hr.merges, hr.distinct⟩
  | _ => exact hr

/-- **Step.** What is found for a kind stays the same. -/
theorem Effect.get (hget : r.get kind = .ok e) : r'.get kind = .ok e := by
  cases h with
  | added => exact get_adding hget _
  | _ => exact hget

/-- **Step.** A registry is frozen from the request for it on. -/
theorem Effect.frozen_iff : r'.frozen = true ↔ r.frozen = true ∨ request = .freeze := by
  cases h with
  | added tag p merge hr => simp [adding, hr]
  | refused tag p fault hr => simp [hr]
  | closed hr => simp [freeze, hr]
  | looked query hr => simp [hr]

/-- **Step.** A frozen registry stays as it is. -/
theorem Effect.eq_of_frozen (hr : r.frozen = true) : r' = r := by
  cases h with
  | added tag p merge _ hm =>
      rw [hm.opened] at hr
      cases hr
  | closed => rw [freeze, ← hr]
  | _ => rfl

/-- **Step.** A request that fails changes nothing. -/
theorem Effect.eq_of_error {f : Failure} (hx : x = .error f) : r' = r := by
  cases h with
  | added => cases hx
  | closed => cases hx
  | _ => rfl

end Effects

/-- The registry after requests, whatever they come to. -/
def after : List Request → Registry → Registry
  | [], r => r
  | request :: later, r => after later (run request.perform r).state

theorem effect_run (request : Request) (r : Registry) :
    Effect r request (run request.perform r).result (run request.perform r).state :=
  Request.effect (yields_run _ _)

/-- **Run.** A sound registry stays sound. -/
theorem Sound.after (h : r.Sound) (requests : List Request) : (after requests r).Sound := by
  induction requests generalizing r with
  | nil => exact h
  | cons request later ih => exact ih ((effect_run request r).sound h)

/-- **Run.** What is found for a kind stays the same. -/
theorem get_after (h : r.get kind = .ok e) (requests : List Request) :
    (after requests r).get kind = .ok e := by
  induction requests generalizing r with
  | nil => exact h
  | cons request later ih => exact ih ((effect_run request r).get h)

/-- **Run.** A registry is frozen from the first request for it on. -/
theorem frozen_after_iff (requests : List Request) :
    (after requests r).frozen = true ↔ r.frozen = true ∨ .freeze ∈ requests := by
  induction requests generalizing r with
  | nil => simp [after]
  | cons request later ih =>
      rw [after, ih, (effect_run request r).frozen_iff, List.mem_cons, or_assoc, eq_comm (a := request)]

/-- **Run.** A frozen registry stays as it is. -/
theorem after_of_frozen (h : r.frozen = true) (requests : List Request) : after requests r = r := by
  induction requests with
  | nil => rfl
  | cons request later ih => rw [after, (effect_run request r).eq_of_frozen h, ih]

/-! ## The life of a registry -/

/-- What a registry is that was empty before the requests. -/
structure Consistent (requests : List Request) (r : Registry) : Prop where
  /-- A registered kind has a name, and a policy of its own with a rule for merging. -/
  registered : ∀ kind e, r.get kind = .ok e →
    kind ≠ [] ∧ e.tag.name = kind ∧ e.policy.kind.name = kind ∧ e.policy.merge? = some e.merge
  /-- The kinds are listed in strict order. -/
  sorted : r.kinds.Pairwise fun a b => a.name.ble b.name = true ∧ a.name ≠ b.name
  /-- The kinds that are listed are those that are found. -/
  listed : ∀ kind, kind ∈ r.kinds.map Kind.name ↔ ∃ e, r.get kind = .ok e
  /-- The kinds that are there are those that are found. -/
  present : ∀ kind, r.has kind = true ↔ ∃ e, r.get kind = .ok e
  /-- A kind is registered just when the registry takes it. -/
  takes : ∀ tag p r', (register tag p).Yields r (.ok ()) r'
    ↔ ∃ merge, r.Admits tag p merge ∧ r' = r.adding ⟨tag, p, merge⟩
  /-- Every other kind is refused. -/
  refuses : ∀ tag p, (∀ merge, ¬ r.Admits tag p merge) →
    ∃ fault, (register tag p).Yields r (.error (.configuration fault)) r
  /-- The policy that a kind is registered with is its first one. -/
  first : ∀ tag p r', (register tag p).Yields r (.ok ()) r' →
    (∀ e, r.get tag.name ≠ .ok e) ∧ ∃ merge, r'.get tag.name = .ok ⟨tag, p, merge⟩
  /-- It stays the policy of the kind. -/
  lasting : ∀ kind e, r.get kind = .ok e → ∀ later, (after later r).get kind = .ok e
  /-- A request that fails changes nothing. -/
  unchanged : ∀ (request : Request) f r', request.perform.Yields r (.error f) r' → r' = r
  /-- A registry that was frozen stays as it is. -/
  frozen : .freeze ∈ requests → ∀ later, after later r = r

/-- **The registry of kinds.** Whatever is asked of an empty registry, and in whatever order, it is as
`Consistent` says. -/
theorem after_consistent (requests : List Request) : Consistent requests (after requests {}) := by
  have hsound : (after requests {}).Sound := sound_empty.after requests
  refine ⟨fun kind e h => ?registered, hsound.sorted, fun kind => mem_kinds_iff,
    fun kind => has_iff_exists_get, fun tag p r' => register_yields_ok_iff,
    fun tag p h => register_yields_refused h, fun tag p r' h => ?first, fun kind e h => get_after h,
    fun request f r' h => (Request.effect h).eq_of_error rfl, fun hmem later => ?frozen⟩
  case registered =>
    obtain ⟨hmem, rfl⟩ := mem_of_get h
    exact ⟨hsound.named e hmem, rfl, hsound.own e hmem, hsound.merges e hmem⟩
  case first =>
    obtain ⟨merge, hm, rfl⟩ := register_yields_ok_iff.1 h
    exact ⟨fun e => hm.get_ne_ok, merge, hm.get_adding⟩
  case frozen =>
    exact after_of_frozen ((frozen_after_iff requests).2 (.inr hmem)) later

/-- A kind is registered, and once more with another rule, which is refused; then the registry is frozen.
The kind keeps its policy, and no other kind comes to it. -/
theorem after_consistent_twice :
    let note : KindPolicy := .extension "note" [] (some .lastWrite)
    let again : KindPolicy := .extension "note" [] (some .escalate)
    let requests : List Request := [.register note.kind note, .register note.kind again, .freeze]
    let r := after requests {}
    r.get "note" = .ok ⟨note.kind, note, .lastWrite⟩
      ∧ (∀ later, (after later r).get "note" = .ok ⟨note.kind, note, .lastWrite⟩)
      ∧ ∀ later, after (.register .page .page :: later) r = r := by
  intro note again requests r
  have hget : r.get "note" = .ok ⟨note.kind, note, .lastWrite⟩ := rfl
  have hconsistent : Consistent requests r := after_consistent requests
  exact ⟨hget, hconsistent.lasting _ _ hget, fun later => hconsistent.frozen (by simp [requests]) _⟩

/-- The bundled registry is one that requests lead to. -/
example : after [.register .page .page, .register .task .task, .freeze] {} = bundled := rfl

end RecordStore.Registry
