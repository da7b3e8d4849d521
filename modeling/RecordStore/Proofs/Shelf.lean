import RecordStore.Proofs.Store

/-!
# RecordStore.Proofs.Shelf

What a store of items is about, without files: a shelf holds one item for each of its identifiers,
and remembers the surroundings of the session, its clock and the number of the next item.

* Items are put on the shelf by `enter`, which takes over input that passes its check, and by `act`,
  which changes the status or the deferral of a task.  Both stamp the item (`write`).
* `remove` takes an item away, and `listed` gives the items in the order of their record files.

A revision of more digits than a numeral may have cannot be written.
-/

namespace RecordStore

open Procedure

/-- A finite map from identifiers to items, with what is around it. -/
structure Shelf where
  items : List Item
  around : Surroundings
  clock : Clock
  nextItem : Nat

/-- The name of the record file of an item. -/
def Item.fileName (i : Item) : Text := RecordName.file i.kind.name i.ident

namespace Shelf

/-! ## The map -/

/-- The item of an identifier. -/
def item? (ident : Text) (h : Shelf) : Option Item := h.items.find? fun i => i.ident == ident

/-- The shelf without the item of an identifier. -/
def without (ident : Text) (h : Shelf) : Shelf :=
  { h with items := h.items.filter fun i => i.ident != ident }

/-- The shelf with an item, in place of the one that had its identifier. -/
def having (i : Item) (h : Shelf) : Shelf := { h with items := i :: (h.without i.ident).items }

/-- The items, or those of one kind, in the order of their record files. -/
def listed (kind? : Option Text) (h : Shelf) : List Item :=
  (h.items.filter fun i => kind?.all (· == i.kind.name)).mergeSort
    fun i j => i.fileName.ble j.fileName

/-! ## Operations -/

/-- The item of an identifier, which must be there. -/
def fetch (ident : Text) : Procedure Shelf Item := do
  match (← Procedure.state).item? ident with
  | some i => pure i
  | none => Procedure.fail (.itemNotFound ident)

/-- Whether there is an item of an identifier. -/
def contains (ident : Text) : Procedure Shelf Bool :=
  (fun h => (h.item? ident).isSome) <$> Procedure.state

/-- All items, or those of one kind. -/
def list (kind? : Option Text) : Procedure Shelf (List Item) :=
  (fun h => h.listed kind?) <$> Procedure.state

/-- Stamp an item and put it on the shelf, as it will be read again. -/
def write (i : Item) : Procedure Shelf Item := do
  let h ← Procedure.state
  let clock ← Procedure.ofExcept (h.clock.advance.mapError .clock)
  Procedure.modify fun h => { h with clock }
  let i := i.stamped h.around.user h.clock.now
  if i.header.revisionNumber < 10 ^ Json.digitLimit then
    Procedure.modify (having i.recorded)
    return i
  else
    Procedure.fail .longInteger

/-- Remember input, and take it over into an item if it passes the check of its payload. -/
def enter (i : Item) (form : Form) : Procedure Shelf Item := do
  Procedure.modify fun h => { h with around := { h.around with input := form } }
  let report := i.payload.check form
  if report.success then
    write { i with payload := i.payload.entered form }
  else
    Procedure.fail (.validation (.rejected report.errors i.ident))

/-- A new item of a kind, under the next identifier. -/
def newItem (kind : Text) : Procedure Shelf Item := do
  let h ← Procedure.state
  let e ← Procedure.ofExcept (Registry.bundled.get kind)
  Procedure.modify fun h => { h with nextItem := h.nextItem + 1 }
  return Item.fresh e.policy (itemName h.nextItem) h.around.user

/-- Put a new item with input on the shelf. -/
def create (kind : Text) (form : Form) : Procedure Shelf Item := do
  enter (← newItem kind) form

/-- Put an item with new input in the place of the old one. -/
def update (ident : Text) (form : Form) : Procedure Shelf Item := do
  enter (← fetch ident) form

/-- Take an item away; the answer tells whether there was one. -/
def remove (ident : Text) : Procedure Shelf Bool := do
  let h ← Procedure.state
  Procedure.modify (without ident)
  return (h.item? ident).isSome

/-- Change an item by an action, and answer with the page that shows it. -/
def act (action : TaskAction) (ident : Text) : Procedure Shelf Response := do
  let i ← fetch ident
  let around := (← Procedure.state).around
  let i ← Procedure.ofExcept (i.acted action around.input)
  let response ← (i.showPage around).lift
  discard (write i)
  return response

/-- Do the action of a name. -/
def dispatch (name ident : Text) : Procedure Shelf Response := do
  match ← Procedure.ofExcept (Action.ofName name) with
  | .onTask action => act action ident
  | .delete =>
    if ← remove ident then
      return Response.addTag "deleted" ident {}
    else
      Procedure.fail (.itemNotFound ident)

/-! ## What operations leave -/

section Leaves

variable {l : List Item} {n : Int} {i : Item}

/-- The items of a shelf have revisions up to a number. -/
def UpTo (n : Int) (h : Shelf) : Prop := ∀ i ∈ h.items, i.header.revisionNumber ≤ n

/-- From the items of a list on, whose revisions go up to `n`, an operation fails and leaves them as
they are, or it leaves items whose revisions go up to `n + 1`. -/
def Counts {α : Type} (l : List Item) (n : Int) (p : Procedure Shelf α) : Prop :=
  p.Ensures (fun h => h.items = l) (fun _ h => h.UpTo (n + 1)) fun h => h.items = l

theorem counts_write (hl : ∀ j ∈ l, j.header.revisionNumber ≤ n) (hi : i.header.revisionNumber ≤ n) :
    Counts l n (write i) := by
  refine ensures_state_bind fun h hh => ensures_ofExcept_bind (fun clock _ => ?_) fun s hs => hs ▸ hh
  refine (ensures_modify (Q := fun s : Shelf => s.items = l) fun s hs => hs ▸ hh).bind fun _ => ?_
  dsimp only
  split
  · refine (ensures_modify (Q := UpTo (n + 1)) ?_).bind fun _ => ensures_pure fun _ hs => hs
    rintro s rfl j hj
    rcases List.mem_cons.1 hj with rfl | hj
    · exact Int.add_le_add_right hi 1
    · exact Int.le_trans (hl j (List.mem_of_mem_filter hj)) (Int.le_add_one (Int.le_refl n))
  · exact ensures_fail fun _ hs => hs

theorem counts_enter (hl : ∀ j ∈ l, j.header.revisionNumber ≤ n) (hi : i.header.revisionNumber ≤ n)
    (form : Form) : Counts l n (enter i form) := by
  have hset : (modify fun h : Shelf => { h with around := { h.around with input := form } }).Ensures
      (fun h => h.items = l) (fun _ h => h.items = l) fun h => h.items = l :=
    ensures_modify fun _ hs => hs
  refine hset.bind fun _ => ?_
  dsimp only
  split
  · exact counts_write hl hi
  · exact ensures_fail fun _ hs => hs

theorem ensures_fetch (ident : Text) : (fetch ident).Ensures (fun h => h.items = l)
    (fun i h => h.items = l ∧ i ∈ l) fun h => h.items = l := by
  refine ensures_state_bind fun h hh => ?_
  cases hi : h.item? ident with
  | none => exact ensures_fail fun s hs => hs ▸ hh
  | some i => exact ensures_pure fun s hs => ⟨hs ▸ hh, hh ▸ List.mem_of_find?_eq_some hi⟩

theorem ensures_newItem (kind : Text) : (newItem kind).Ensures (fun h => h.items = l)
    (fun i h => h.items = l ∧ i.header.revisionNumber = 0) fun h => h.items = l := by
  refine ensures_state_bind fun h hh => ensures_ofExcept_bind (fun e _ => ?_) fun s hs => hs ▸ hh
  refine (ensures_modify (Q := fun h => h.items = l) fun s hs => hs ▸ hh).bind fun _ => ?_
  exact ensures_pure fun _ hs => ⟨hs, rfl⟩

theorem counts_create (hl : ∀ j ∈ l, j.header.revisionNumber ≤ n) (hn : 0 ≤ n) (kind : Text)
    (form : Form) : Counts l n (create kind form) :=
  (ensures_newItem kind).bind fun _ s r s' hs =>
    counts_enter hl (hs.2.trans_le hn) form s r s' hs.1

theorem counts_update (hl : ∀ j ∈ l, j.header.revisionNumber ≤ n) (ident : Text) (form : Form) :
    Counts l n (update ident form) :=
  (ensures_fetch ident).bind fun i s r s' hs => counts_enter hl (hl i hs.2) form s r s' hs.1

/-- An item that is not there is not taken away. -/
theorem ensures_remove (ident : Text) : (remove ident).Ensures (fun h => h.items = l)
    (fun b h => (∀ j ∈ h.items, j ∈ l) ∧ (b = false → h.items = l)) fun h => h.items = l := by
  refine ensures_state_bind fun h hh => ?_
  refine (ensures_modify (Q := fun s => s = h.without ident) fun s hs => hs ▸ rfl).bind fun _ => ?_
  refine ensures_pure fun s hs => ?_
  subst hs hh
  refine ⟨fun j hj => List.mem_of_mem_filter hj, fun hnone => List.filter_eq_self.2 fun j hj => ?_⟩
  have hfind := List.find?_eq_none.1 (Option.isSome_eq_false_iff.1 hnone |> Option.isNone_iff_eq_none.1)
  simpa using hfind j hj

theorem counts_discard_write (hl : ∀ j ∈ l, j.header.revisionNumber ≤ n)
    (hi : i.header.revisionNumber ≤ n) {α : Type} (a : α) :
    Counts l n (discard (write i) >>= fun _ => pure a) := by
  refine Ensures.bind (Q := fun _ => UpTo (n + 1)) ?_ fun _ => ensures_pure fun _ hs => hs
  exact (counts_write hl hi).bind fun _ => ensures_pure fun _ hs => hs

theorem counts_act (hl : ∀ j ∈ l, j.header.revisionNumber ≤ n) (action : TaskAction) (ident : Text) :
    Counts l n (act action ident) := by
  have hrest : ∀ {j : Item} (around : Surroundings), j.header.revisionNumber ≤ n →
      Counts l n ((j.showPage around).lift >>= fun response => discard (write j) >>= fun _ =>
        pure response) := by
    intro j around hj
    have hlook := fun s : Shelf => (yields_run (j.showPage around) ()).lift (s := s)
    exact (ensures_of_looks fun s _ => ⟨_, hlook s⟩).bind fun response => counts_discard_write hl hj _
  refine (ensures_fetch ident).bind fun i => ensures_state_bind fun h ⟨hh, hi⟩ => ?_
  refine ensures_ofExcept_bind (fun j hj s r s' hs => ?_) fun s hs => hs ▸ hh
  have hheader : j.header = i.header := by
    obtain ⟨_, _, _, -, rfl⟩ := Item.acted_eq hj
    rfl
  exact hrest h.around (hheader ▸ hl i hi) s r s' (hs ▸ hh)

theorem counts_dispatch (hl : ∀ j ∈ l, j.header.revisionNumber ≤ n) (name ident : Text) :
    Counts l n (dispatch name ident) := by
  refine ensures_ofExcept_bind (fun action _ => ?_) fun _ hs => hs
  cases action with
  | onTask a => exact counts_act hl a ident
  | delete =>
      refine (ensures_remove ident).bind fun b => ?_
      cases b with
      | true => exact ensures_pure fun s hs j hj => Int.le_add_one (hl j (hs.1 j hj))
      | false => exact ensures_fail fun s hs => hs.2 rfl

end Leaves

end Shelf

end RecordStore
