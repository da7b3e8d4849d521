import RecordStore.Proofs.Clean
import RecordStore.Proofs.Shelf
import RecordStore.Proofs.TextOrder

/-!
# RecordStore.Proofs.Refinement

The store of items is a shelf.  A session `Shows` a shelf when its repository holds the records of the
shelf's items and nothing else, and the surroundings are the same.  Every command has the same answer
in the session and on the shelf, and leaves a session that shows the shelf (`simulates_command`).
-/

namespace RecordStore

open Procedure
open Repository (Contents AtRest)

/-! ## Shelves -/

/-- An item as a shelf holds it: it is what its record is read as. -/
structure Item.Kept (i : Item) : Prop where
  regular : i.Regular
  recorded : i = i.recorded
  counted : i.header.Counted
  named : i.Named
  bytes : ∃ blob, i.bytes = .ok blob

namespace Shelf

variable {h : Shelf} {i : Item} {ident : Text} {blob : Bytes}

/-- The records of a shelf. -/
def contents (h : Shelf) : Contents := fun ident =>
  (h.item? ident).bind fun i => i.bytes.toOption.map fun blob => (i.kind.name, blob)

/-- A shelf that holds one item for each of its identifiers. -/
structure Tidy (h : Shelf) : Prop where
  kept : ∀ i ∈ h.items, i.Kept
  nodup : (h.items.map Item.ident).Nodup

theorem item?_without (h : Shelf) (ident ident' : Text) :
    (h.without ident).item? ident' = if ident' = ident then none else h.item? ident' := by
  rw [item?, without, List.find?_filter]
  by_cases heq : ident' = ident
  · subst heq
    simp
  · have hsame : (fun i : Item => decide ((i.ident != ident) = true ∧ (i.ident == ident') = true))
        = fun i => i.ident == ident' := by
      funext i
      by_cases hi : i.ident = ident'
      · simp [hi, heq]
      · simp [hi]
    rw [hsame, if_neg heq]
    rfl

theorem item?_having (h : Shelf) (i : Item) (ident : Text) :
    (h.having i).item? ident = if ident = i.ident then some i else h.item? ident := by
  have hrest := item?_without h i.ident ident
  by_cases heq : ident = i.ident
  · simp [item?, having, heq]
  · have hne : (i.ident == ident) = false := beq_false_of_ne (Ne.symm heq)
    rw [if_neg heq] at hrest ⊢
    rw [item?, having, List.find?_cons, hne]
    exact hrest

theorem contents_without (h : Shelf) (ident : Text) :
    (h.without ident).contents = Function.update h.contents ident none := by
  funext ident'
  rw [contents, item?_without]
  by_cases heq : ident' = ident
  · simp [heq]
  · rw [if_neg heq, Function.update_of_ne heq]
    rfl

theorem contents_having (hb : i.bytes = .ok blob) :
    (h.having i).contents = Function.update h.contents i.ident (some (i.kind.name, blob)) := by
  funext ident
  rw [contents, item?_having]
  by_cases heq : ident = i.ident
  · simp [heq, hb, Except.toOption]
  · rw [if_neg heq, Function.update_of_ne heq]
    rfl

/-- The item of an identifier is the one that has it. -/
theorem Tidy.item?_eq_some_iff (t : h.Tidy) : h.item? ident = some i ↔ i ∈ h.items ∧ i.ident = ident := by
  constructor
  · intro hi
    exact ⟨List.mem_of_find?_eq_some hi, by simpa using List.find?_some hi⟩
  · rintro ⟨hmem, rfl⟩
    obtain ⟨j, hj⟩ : ∃ j, h.item? i.ident = some j := by
      rw [← Option.isSome_iff_exists, item?, List.find?_isSome]
      exact ⟨i, hmem, by simp⟩
    have hident : j.ident = i.ident := by simpa using List.find?_some hj
    rw [hj, List.inj_on_of_nodup_map t.nodup (List.mem_of_find?_eq_some hj) hmem hident]

theorem Tidy.without (t : h.Tidy) (ident : Text) : (h.without ident).Tidy where
  kept i hi := t.kept i (List.mem_of_mem_filter hi)
  nodup := t.nodup.sublist (List.filter_sublist.map _)

theorem Tidy.having (t : h.Tidy) (hi : i.Kept) : (h.having i).Tidy where
  kept j hj := by
    rcases List.mem_cons.1 hj with rfl | hj
    · exact hi
    · exact (t.without i.ident).kept j hj
  nodup := by
    have hnot : i.ident ∉ (h.without i.ident).items.map Item.ident := by
      simp [Shelf.without]
    exact List.nodup_cons.2 ⟨hnot, (t.without i.ident).nodup⟩

/-- The record of an identifier is that of the item. -/
theorem Tidy.contents_eq_some_iff (t : h.Tidy) {kind : Text} :
    h.contents ident = some (kind, blob) ↔
      ∃ i ∈ h.items, i.ident = ident ∧ i.kind.name = kind ∧ i.bytes = .ok blob := by
  constructor
  · intro hv
    obtain ⟨i, hi, hv⟩ := Option.bind_eq_some_iff.1 hv
    obtain ⟨hmem, hident⟩ := t.item?_eq_some_iff.1 hi
    obtain ⟨b, hb⟩ := (t.kept i hmem).bytes
    simp only [hb, Except.toOption, Option.map_some, Option.some.injEq, Prod.mk.injEq] at hv
    exact ⟨i, hmem, hident, hv.1, hv.2 ▸ hb⟩
  · rintro ⟨i, hmem, hident, hkind, hb⟩
    rw [contents, t.item?_eq_some_iff.2 ⟨hmem, hident⟩]
    simp [hb, hkind, Except.toOption]

theorem Tidy.contents_eq_none_iff (t : h.Tidy) : h.contents ident = none ↔ h.item? ident = none := by
  constructor
  · intro hnone
    cases hi : h.item? ident with
    | none => rfl
    | some i =>
        obtain ⟨hmem, hident⟩ := t.item?_eq_some_iff.1 hi
        obtain ⟨b, hb⟩ := (t.kept i hmem).bytes
        have hsome := t.contents_eq_some_iff.2 ⟨i, hmem, hident, rfl, hb⟩
        rw [hnone] at hsome
        cases hsome
  · intro hnone
    rw [contents, hnone]
    rfl

end Shelf

/-! ## Sessions and shelves -/

/-- A session whose repository holds the items of a shelf and that has the same surroundings. -/
structure Shows (s : Session) (h : Shelf) : Prop where
  registry : s.registry = .bundled
  ready : s.Ready
  around : s.surroundings = h.around
  clock : s.clock = h.clock
  nextItem : s.nextItem = h.nextItem
  recordable : h.clock.now.Recordable
  user : ∀ u ∈ h.around.user, u.Plain
  tidy : h.Tidy
  atRest : AtRest h.contents s.disk

/-- In sessions and on the shelves that they show, two procedures have the same result, and leave a
session that shows the shelf; what they give has a property. -/
def Simulates {α : Type} (p : Procedure Session α) (q : Procedure Shelf α) (Q : α → Prop) : Prop :=
  ∀ s h, Shows s h → ∃ r s' h', p.Yields s r s' ∧ q.Yields h r h' ∧ Shows s' h'
    ∧ ∀ a, r = .ok a → Q a

section Simulates

variable {α β : Type} {p : Procedure Session α} {q : Procedure Shelf α} {Q : α → Prop} {R : β → Prop}

theorem Simulates.bind {f : α → Procedure Session β} {g : α → Procedure Shelf β}
    (hp : Simulates p q Q) (hf : ∀ a, Q a → Simulates (f a) (g a) R) :
    Simulates (p >>= f) (q >>= g) R := by
  intro s h hs
  obtain ⟨r, s₁, h₁, hy, hy', hs₁, hQ⟩ := hp s h hs
  cases r with
  | error e => exact ⟨.error e, s₁, h₁, hy.bind_error, hy'.bind_error, hs₁, by simp⟩
  | ok a =>
      obtain ⟨r, s₂, h₂, hz, hz', hs₂, hR⟩ := hf a (hQ a rfl) s₁ h₁ hs₁
      exact ⟨r, s₂, h₂, hy.bind hz, hy'.bind hz', hs₂, hR⟩

theorem simulates_pure {a : α} (ha : Q a) : Simulates (pure a) (pure a) Q := by
  intro s h hs
  refine ⟨_, s, h, yields_pure a s, yields_pure a h, hs, ?_⟩
  intro b hb
  cases hb
  exact ha

theorem simulates_fail (e : Failure) : Simulates (fail e) (fail e) Q := by
  intro s h hs
  exact ⟨_, s, h, yields_fail e s, yields_fail e h, hs, by simp⟩

theorem simulates_ofExcept (x : Except Failure α) :
    Simulates (Procedure.ofExcept x) (Procedure.ofExcept x) (fun a => x = .ok a) := by
  intro s h hs
  exact ⟨x, s, h, yields_ofExcept x s, yields_ofExcept x h, hs, fun a ha => ha⟩

theorem simulates_modify {f : Session → Session} {g : Shelf → Shelf}
    (h : ∀ s h, Shows s h → Shows (f s) (g h)) :
    Simulates (Procedure.modify f) (Procedure.modify g) fun _ => True :=
  fun s k hs => ⟨_, _, _, yields_modify f s, yields_modify g k, h s k hs, fun _ _ => trivial⟩

/-- What is only done in sessions, and leaves them alone, does not matter. -/
theorem Simulates.after_looking {f : β → Procedure Session α} {look : Procedure Session β} {b : β}
    (hlook : ∀ s, s.Ready → look.Yields s (.ok b) s) (hp : Simulates (f b) q Q) :
    Simulates (look >>= f) q Q := by
  intro s h hs
  obtain ⟨r, s', h', hy, hy', hs', hQ⟩ := hp s h hs
  exact ⟨r, s', h', (hlook s hs.ready).bind hy, hy', hs', hQ⟩

theorem Simulates.map (f : α → β) (hp : Simulates p q Q) : Simulates (f <$> p) (f <$> q) fun _ => True :=
  hp.bind fun _ _ => simulates_pure trivial

end Simulates

/-! ## Looking up -/

section Looking

variable {s : Session} {h : Shelf}

theorem Shows.represents (hs : Shows s h) : Repository.Represents s.disk h.contents :=
  hs.atRest.settled.represents

/-- An item on the shelf is found. -/
theorem Shows.find_yields (hs : Shows s h) {i : Item} (hi : i ∈ h.items) :
    (Store.find i.ident).Yields s (.ok i) s := by
  obtain ⟨blob, hb⟩ := (hs.tidy.kept i hi).bytes
  have hstored := hs.tidy.contents_eq_some_iff.2 ⟨i, hi, rfl, rfl, hb⟩
  have hfind := Store.find_yields hs.represents hs.ready i.ident
  have hdecode := (hs.tidy.kept i hi).regular.decodeItem_bytes hb
  rw [← (hs.tidy.kept i hi).recorded, ← hs.registry] at hdecode
  rw [hstored] at hfind
  dsimp only at hfind
  rwa [hdecode.1] at hfind

theorem Shows.find_yields_none (hs : Shows s h) {ident : Text} (hi : h.item? ident = none) :
    (Store.find ident).Yields s (.error (.itemNotFound ident)) s := by
  have hfind := Store.find_yields hs.represents hs.ready ident
  rwa [hs.tidy.contents_eq_none_iff.2 hi] at hfind

theorem Shelf.fetch_yields {i : Item} {ident : Text} (hi : h.item? ident = some i) :
    (fetch ident).Yields h (.ok i) h := by
  refine yields_state_bind_iff.2 ?_
  rw [hi]
  exact yields_pure i h

theorem Shelf.fetch_yields_none {ident : Text} (hi : h.item? ident = none) :
    (fetch ident).Yields h (.error (.itemNotFound ident)) h := by
  refine yields_state_bind_iff.2 ?_
  rw [hi]
  exact yields_fail _ h

theorem simulates_find (ident : Text) :
    Simulates (Store.find ident) (Shelf.fetch ident) Item.Kept := by
  intro s h hs
  cases hi : h.item? ident with
  | none => exact ⟨_, s, h, hs.find_yields_none hi, Shelf.fetch_yields_none hi, hs, by simp⟩
  | some i =>
      have hfetch := Shelf.fetch_yields hi
      obtain ⟨hmem, rfl⟩ := hs.tidy.item?_eq_some_iff.1 hi
      refine ⟨_, s, h, hs.find_yields hmem, hfetch, hs, ?_⟩
      intro j hj
      cases hj
      exact hs.tidy.kept i hmem

theorem simulates_get (ident : Text) : Simulates (Store.get ident) (Shelf.fetch ident) Item.Kept :=
  .after_looking (fun _ hr => hr.ensureOpen) (simulates_find ident)

theorem simulates_contains (ident : Text) :
    Simulates (Store.contains ident) (Shelf.contains ident) fun _ => True := by
  intro s h hs
  have hlook := lookUp_yields (s := s) fun d => .ok (Repository.exists? ident d)
  have hsome : Repository.exists? ident s.disk = (h.item? ident).isSome := by
    rw [hs.represents.exists?_eq, Bool.eq_iff_iff, Option.isSome_iff_ne_none, Option.isSome_iff_ne_none,
      ne_eq, ne_eq, hs.tidy.contents_eq_none_iff]
  refine ⟨_, s, h, hs.ready.requireRepository.bind hlook, ?_, hs, fun _ _ => trivial⟩
  rw [hsome]
  exact (yields_state h).map _

/-- The record file of an item. -/
def Item.recordFile (i : Item) : Repository.RecordFile := ⟨i.kind.name, i.ident, i.fileName⟩

/-- The record files of a repository are those of the items that it holds. -/
theorem Shows.mem_recordFiles_iff (hs : Shows s h) {f : Repository.RecordFile} :
    f ∈ Repository.recordFiles s.disk ↔ f ∈ h.items.map Item.recordFile := by
  obtain ⟨kind, ident, name⟩ := f
  rw [Repository.mem_recordFiles_iff, List.mem_map]
  dsimp only
  constructor
  · rintro ⟨hv, rfl, n, hn⟩
    cases n with
    | directory => exact absurd hn (hs.represents.noDirectory hv)
    | file blob =>
        obtain ⟨i, hi, rfl, rfl, -⟩ :=
          hs.tidy.contents_eq_some_iff.1 (hs.represents.eq_some_iff.2 ⟨hv, hn⟩)
        exact ⟨i, hi, rfl⟩
  · rintro ⟨i, hi, heq⟩
    cases heq
    obtain ⟨blob, hb⟩ := (hs.tidy.kept i hi).bytes
    obtain ⟨hv, hn⟩ := hs.represents.eq_some_iff.1
      (hs.tidy.contents_eq_some_iff.2 ⟨i, hi, rfl, rfl, hb⟩)
    exact ⟨hv, rfl, _, hn⟩

/-- The record files are sorted by their names, which are all different. -/
theorem recordFiles_sorted {d : Disk} (w : d.WellFormed) :
    (Repository.recordFiles d).Pairwise fun f g => f.name.ble g.name = true ∧ f.name ≠ g.name := by
  have hnames : (d.names []).Pairwise fun a b => a.ble b = true ∧ a ≠ b :=
    List.pairwise_and_iff.2 ⟨List.pairwise_mergeSort Text.ble_trans Text.ble_total _, w.nodup_names []⟩
  refine List.Pairwise.filterMap _ ?_ hnames
  intro a b hab f hf g hg
  rw [(Repository.recordFile?_eq_some_iff.1 hf).2.2, (Repository.recordFile?_eq_some_iff.1 hg).2.2]
  exact hab

theorem Shows.recordFiles_perm (hs : Shows s h) :
    (Repository.recordFiles s.disk).Perm (h.items.map Item.recordFile) := by
  have hsorted := recordFiles_sorted hs.atRest.settled.wellFormed
  have hnodup : (h.items.map Item.recordFile).Nodup := by
    refine List.Nodup.of_map Repository.RecordFile.ident ?_
    rw [List.map_map]
    exact hs.tidy.nodup
  refine (List.perm_ext_iff_of_nodup (hsorted.imp fun hne heq => hne.2 (congrArg _ heq)) hnodup).2 ?_
  exact fun f => hs.mem_recordFiles_iff

/-- Whether a record file is of a kind, if one is asked for. -/
def Repository.RecordFile.isOf (kind? : Option Text) (f : Repository.RecordFile) : Bool :=
  kind?.all (· == f.kind)

/-- The record files of a kind are those of the listed items, in their order. -/
theorem Shows.filter_recordFiles (hs : Shows s h) (kind? : Option Text) :
    (Repository.recordFiles s.disk).filter (Repository.RecordFile.isOf kind?)
      = (h.listed kind?).map Item.recordFile := by
  have hsorted := (recordFiles_sorted hs.atRest.settled.wellFormed).filter
    (Repository.RecordFile.isOf kind?)
  have hperm : ((Repository.recordFiles s.disk).filter (Repository.RecordFile.isOf kind?)).Perm
      ((h.listed kind?).map Item.recordFile) := by
    have hall := hs.recordFiles_perm.filter (Repository.RecordFile.isOf kind?)
    rw [List.filter_map] at hall
    exact hall.trans ((List.mergeSort_perm _ _).symm.map _)
  have hlisted : ((h.listed kind?).map Item.recordFile).Pairwise fun f g => f.name.ble g.name = true :=
    List.pairwise_map.2 (List.pairwise_mergeSort
      (fun i j k => Text.ble_trans i.fileName j.fileName k.fileName)
      (fun i j => Text.ble_total i.fileName j.fileName) _)
  refine List.Perm.eq_of_pairwise ?_ (hsorted.imp And.left) hlisted hperm
  intro f g hf hg hfg hgf
  have hf := List.mem_of_mem_filter hf
  have hg := List.mem_of_mem_filter (hperm.mem_iff.2 hg)
  exact Repository.eq_of_name_eq hf hg (Text.ble_antisymm hfg hgf)

/-- The entries of a repository are the items in the order of their record files. -/
theorem Shows.entries_eq (hs : Shows s h) (kind? : Option Text) :
    Repository.entries kind? s.disk = (h.listed kind?).map fun i => (i.kind.name, i.ident) := by
  have hentries : Repository.entries kind? s.disk
      = ((Repository.recordFiles s.disk).filter (Repository.RecordFile.isOf kind?)).map
        fun f => (f.kind, f.ident) := rfl
  rw [hentries, hs.filter_recordFiles, List.map_map]
  rfl

theorem Shows.findAll_yields (hs : Shows s h) {l : List Item} (hl : ∀ i ∈ l, i ∈ h.items) :
    (Store.findAll (l.map Item.ident)).Yields s (.ok l) s := by
  induction l with
  | nil => exact yields_pure [] s
  | cons i l ih =>
      have hfind := hs.find_yields (hl i List.mem_cons_self)
      exact hfind.bind ((ih fun j hj => hl j (List.mem_cons_of_mem i hj)).bind (yields_pure _ s))

theorem simulates_list (kind? : Option Text) :
    Simulates (Store.list kind?) (Shelf.list kind?) fun _ => True := by
  intro s h hs
  have hlook := lookUp_yields (s := s) fun d => .ok (Repository.entries kind? d)
  have hall : (Store.findAll ((Repository.entries kind? s.disk).map Prod.snd)).Yields s
      (.ok (h.listed kind?)) s := by
    rw [hs.entries_eq, List.map_map]
    refine hs.findAll_yields fun i hi => ?_
    exact List.mem_of_mem_filter (List.mem_mergeSort.1 hi)
  exact ⟨_, s, h, hs.ready.requireRepository.bind (hlook.bind hall), (yields_state h).map _, hs,
    fun _ _ => trivial⟩

end Looking

/-! ## Writing -/

section Writing

variable {s : Session} {h : Shelf} {i : Item} {op : Operation}

/-- What happens around the repository happens around the shelf. -/
theorem Shows.clocked (hs : Shows s h) {clock : Clock} (hclock : clock.now.Recordable) :
    Shows { s with clock } { h with clock } :=
  ⟨hs.registry, ⟨hs.ready.closed, hs.ready.attached⟩, hs.around, rfl, hs.nextItem, hclock, hs.user,
    ⟨hs.tidy.kept, hs.tidy.nodup⟩, hs.atRest⟩

theorem Shows.given (hs : Shows s h) (form : Form) :
    Shows { s with input := form } { h with around := { h.around with input := form } } :=
  ⟨hs.registry, ⟨hs.ready.closed, hs.ready.attached⟩, by rw [← hs.around]; rfl, hs.clock, hs.nextItem,
    hs.recordable, hs.user, ⟨hs.tidy.kept, hs.tidy.nodup⟩, hs.atRest⟩

theorem Shows.actedBy (hs : Shows s h) {user : Option Text} (huser : ∀ u ∈ user, u.Plain) :
    Shows { s with user } { h with around := { h.around with user } } :=
  ⟨hs.registry, ⟨hs.ready.closed, hs.ready.attached⟩, by rw [← hs.around]; rfl, hs.clock, hs.nextItem,
    hs.recordable, huser, ⟨hs.tidy.kept, hs.tidy.nodup⟩, hs.atRest⟩

theorem Shows.onDay (hs : Shows s h) (today : Date) :
    Shows { s with today } { h with around := { h.around with today } } :=
  ⟨hs.registry, ⟨hs.ready.closed, hs.ready.attached⟩, by rw [← hs.around]; rfl, hs.clock, hs.nextItem,
    hs.recordable, hs.user, ⟨hs.tidy.kept, hs.tidy.nodup⟩, hs.atRest⟩

/-- An item whose record is stored is on the shelf. -/
theorem Shows.having (hs : Shows s h) {d : Disk} {n : Nat} {blob : Bytes} (k : i.Kept)
    (hb : i.bytes = .ok blob)
    (w : AtRest (Function.update h.contents i.ident (some (i.kind.name, blob))) d) :
    Shows { s with disk := d, nextBatch := n } (h.having i) :=
  ⟨hs.registry, ⟨hs.ready.closed, hs.ready.attached⟩, hs.around, hs.clock, hs.nextItem, hs.recordable,
    hs.user, hs.tidy.having k, Shelf.contents_having hb ▸ w⟩

/-- An item whose record is gone is not on the shelf any more. -/
theorem Shows.without (hs : Shows s h) {d : Disk} {n : Nat} (ident : Text)
    (w : AtRest (Function.update h.contents ident none) d) :
    Shows { s with disk := d, nextBatch := n } (h.without ident) :=
  ⟨hs.registry, ⟨hs.ready.closed, hs.ready.attached⟩, hs.around, hs.clock, hs.nextItem, hs.recordable,
    hs.user, hs.tidy.without ident, Shelf.contents_without h ident ▸ w⟩

theorem Shows.user_eq (hs : Shows s h) : s.user = h.around.user :=
  congrArg Surroundings.user hs.around

/-- An item is stamped and put on the shelf, unless its revision is too long. -/
theorem Shelf.write_yields {clock : Clock} (hclock : h.clock.advance = .ok clock) (i : Item) :
    let stamped := i.stamped h.around.user h.clock.now
    if stamped.header.revisionNumber < 10 ^ Json.digitLimit then
      (write i).Yields h (.ok stamped) (Shelf.having stamped.recorded { h with clock })
    else
      (write i).Yields h (.error .longInteger) { h with clock } := by
  intro stamped
  unfold write
  have hread : (Procedure.ofExcept (h.clock.advance.mapError .clock) :
      Procedure Shelf Clock).Yields h (.ok clock) h := by
    rw [hclock]
    exact yields_pure clock h
  have hset := yields_modify (fun h : Shelf => { h with clock }) h
  split
  · next hlimit =>
    refine yields_state_bind_iff.2 (hread.bind (hset.bind ?_))
    dsimp only
    rw [if_pos hlimit]
    exact (yields_modify _ _).bind (yields_pure _ _)
  · next hlimit =>
    refine yields_state_bind_iff.2 (hread.bind (hset.bind ?_))
    dsimp only
    rw [if_neg hlimit]
    exact yields_fail _ _

/-- A procedure on an item next to the session, and one on the shelf that gives the item back. -/
def SimulatesOn (i : Item) (p : Procedure (Session × Item) Unit) (q : Procedure Shelf Item) : Prop :=
  ∀ s h, Shows s h → ∃ r s' h' i', p.Yields (s, i) (r.map fun _ => ()) (s', i') ∧ q.Yields h r h'
    ∧ Shows s' h' ∧ ∀ j, r = .ok j → j = i'

/-- An item that is saved is put on the shelf. -/
theorem simulatesOn_save (r : i.Regular) (c : i.Clean) (hnamed : i.Named) {op : Operation}
    (hop : op ≠ .delete) : SimulatesOn i (Store.save op) (Shelf.write i) := by
  intro s h hs
  cases hclock : h.clock.advance with
  | error e =>
      have hwrite : (Shelf.write i).Yields h (.error (.clock e)) h := by
        refine yields_state_bind_iff.2 ?_
        rw [hclock]
        exact (yields_fail _ h).bind_error
      exact ⟨_, s, h, i, Store.save_yields_clock (hs.clock ▸ hclock), hwrite, hs, by simp⟩
  | ok clock =>
      have hclock' : s.clock.advance = .ok clock := by rw [hs.clock, hclock]
      have hread := hs.clocked (Clock.recordable_advance hclock hs.recordable)
      have hstamped : i.stamped h.around.user h.clock.now = i.stamped s.user s.clock.now := by
        rw [hs.user_eq, hs.clock]
      have hnow : s.clock.now.Recordable := hs.clock ▸ hs.recordable
      have huser : ∀ u ∈ s.user, u.Plain := hs.user_eq ▸ hs.user
      obtain ⟨rs, hcounted⟩ := r.stamped s.user hnow
      have hbytes := rs.bytes_of_clean hcounted (c.stamped huser s.clock.now)
      have hwrite := Shelf.write_yields hclock i
      dsimp only at hwrite
      rw [hstamped] at hwrite
      by_cases hlimit : (i.stamped s.user s.clock.now).header.revisionNumber < 10 ^ Json.digitLimit
      · rw [if_pos hlimit] at hbytes hwrite
        obtain ⟨blob, hb⟩ := hbytes
        obtain ⟨d, hover, w⟩ := Store.handOver_atRest hread.atRest hread.ready rs hnamed hop hb
        have hb' := rs.bytes_recorded.trans hb
        have hkept : (i.stamped s.user s.clock.now).recorded.Kept :=
          ⟨rs.recorded, (Item.recorded_recorded _).symm, hcounted, hnamed, blob, hb'⟩
        exact ⟨.ok _, _, _, _, Store.save_yields r hclock' hover, hwrite, hread.having hkept hb' w,
          fun j hj => (Except.ok.inj hj).symm⟩
      · rw [if_neg hlimit] at hbytes hwrite
        exact ⟨.error _, _, _, _, Store.save_yields r hclock' (Store.handOver_yields_error hbytes),
          hwrite, hread, by simp⟩

/-- Input is taken over into an item and saved, or refused. -/
theorem simulatesOn_writeInput {form : Form} (r : i.Regular) (c : i.Clean) (hnamed : i.Named)
    (hform : ∀ field ∈ form, field.2.Plain) (hop : op ≠ .delete) :
    SimulatesOn i (Store.writeInput form op) (Shelf.enter i form) := by
  intro s h hs
  have hcheck := Store.check_yields r hs.ready.closed form
  have hgiven := hs.given form
  have hset := yields_modify (fun h : Shelf => { h with around := { h.around with input := form } }) h
  cases hsuccess : (i.payload.check form).success with
  | false =>
      rw [hsuccess] at hcheck
      have henter : (Shelf.enter i form).Yields h
          (.error (.validation (.rejected (i.payload.check form).errors i.ident)))
          { h with around := { h.around with input := form } } := by
        refine hset.bind ?_
        dsimp only
        rw [hsuccess]
        exact yields_fail _ _
      exact ⟨.error _, _, _, _, yields_state_bind_iff.2 hcheck.onFirst.bind_error, henter, hgiven,
        by simp⟩
  | true =>
      rw [hsuccess] at hcheck
      obtain ⟨out, s', h', i', hsave, hwrite, hs', hi'⟩ :=
        simulatesOn_save (r.entered form) (c.entered hform) hnamed hop _ _ hgiven
      have henter : (Shelf.enter i form).Yields h out h' := by
        refine hset.bind ?_
        dsimp only
        rw [hsuccess]
        exact hwrite
      have happly := Item.applyForm_yields hsuccess
      exact ⟨out, s', h', i', yields_state_bind_iff.2 (hcheck.onFirst.bind (happly.onSecond.bind hsave)),
        henter, hs', hi'⟩

/-- What is done on an item next to the session gives the item that the shelf gives. -/
theorem SimulatesOn.simulates {p : Procedure (Session × Item) Unit} {q : Procedure Shelf Item}
    (hp : SimulatesOn i p q) :
    Simulates (withLocal i p >>= fun out => pure out.2) q fun _ => True := by
  intro s h hs
  obtain ⟨r, s', h', i', hy, hy', hs', hi'⟩ := hp s h hs
  cases r with
  | error e => exact ⟨_, s', h', hy.withLocal.bind_error, hy', hs', fun _ _ => trivial⟩
  | ok j =>
      rw [hi' j rfl] at hy'
      exact ⟨_, s', h', hy.withLocal.bind (yields_pure _ s'), hy', hs', fun _ _ => trivial⟩

theorem simulates_newItem (kind : Text) :
    Simulates (Store.newItem kind) (Shelf.newItem kind) fun i => i.Regular ∧ i.Clean ∧ i.Named := by
  intro s h hs
  have hnew := Store.newItem_yields hs.registry kind
  have huser : ∀ u ∈ s.user, u.Plain := hs.user_eq ▸ hs.user
  cases he : Registry.bundled.get kind with
  | error f =>
      rw [he] at hnew
      have hshelf : (Shelf.newItem kind).Yields h (.error f) h := by
        refine yields_state_bind_iff.2 ?_
        rw [he]
        exact (yields_fail f h).bind_error
      exact ⟨.error f, s, h, hnew, hshelf, hs, by simp⟩
  | ok e =>
      rw [he] at hnew
      have hshelf : (Shelf.newItem kind).Yields h
          (.ok (Item.fresh e.policy (itemName s.nextItem) s.user)) { h with nextItem := h.nextItem + 1 } := by
        rw [hs.nextItem, hs.user_eq]
        refine yields_state_bind_iff.2 ?_
        rw [he]
        exact yields_ofExcept_ok_bind_iff.2 ((yields_modify _ h).bind (yields_pure _ _))
      have hshows : Shows { s with nextItem := s.nextItem + 1 } { h with nextItem := h.nextItem + 1 } :=
        ⟨hs.registry, ⟨hs.ready.closed, hs.ready.attached⟩, hs.around, hs.clock,
          congrArg (· + 1) hs.nextItem, hs.recordable, hs.user, ⟨hs.tidy.kept, hs.tidy.nodup⟩, hs.atRest⟩
      refine ⟨.ok _, _, _, hnew, hshelf, hshows, fun i hi => ?_⟩
      cases hi
      exact ⟨Item.regular_fresh he _ _, Item.clean_fresh he _ huser, Item.named_fresh he _ _⟩

theorem simulates_create (kind : Text) {form : Form} (hform : ∀ field ∈ form, field.2.Plain) :
    Simulates (Store.create kind form) (Shelf.create kind form) fun _ => True :=
  .after_looking (fun _ hr => hr.ensureOpen) <| (simulates_newItem kind).bind fun _ ⟨r, c, hnamed⟩ =>
    (simulatesOn_writeInput r c hnamed hform (by decide)).simulates

theorem Item.Kept.clean (k : i.Kept) : i.Clean := by
  obtain ⟨blob, hb⟩ := k.bytes
  exact k.regular.clean hb

theorem simulates_update (ident : Text) {form : Form} (hform : ∀ field ∈ form, field.2.Plain) :
    Simulates (Store.update ident form) (Shelf.update ident form) fun _ => True :=
  (simulates_get ident).bind fun _ hi =>
    (simulatesOn_writeInput hi.regular hi.clean hi.named hform (by decide)).simulates

/-- An item that is deleted is taken from the shelf. -/
theorem simulates_delete (ident : Text) :
    Simulates (Store.delete ident) (Shelf.remove ident) fun _ => True := by
  intro s h hs
  have hremove : (Shelf.remove ident).Yields h (.ok (h.item? ident).isSome) (h.without ident) :=
    yields_state_bind_iff.2 ((yields_modify _ h).bind (yields_pure _ _))
  cases hi : h.item? ident with
  | none =>
      have hnone := hs.tidy.contents_eq_none_iff.2 hi
      have w : AtRest (Function.update h.contents ident none) s.disk := by
        rw [← hnone, Function.update_eq_self]
        exact hs.atRest
      rw [hi] at hremove
      exact ⟨_, s, _, Store.delete_yields_none hs.represents hs.ready hnone, hremove, hs.without ident w,
        fun _ _ => trivial⟩
  | some i =>
      obtain ⟨hmem, rfl⟩ := hs.tidy.item?_eq_some_iff.1 hi
      obtain ⟨blob, hb⟩ := (hs.tidy.kept i hmem).bytes
      have hstored := hs.tidy.contents_eq_some_iff.2 ⟨i, hmem, rfl, rfl, hb⟩
      have hregular := (hs.tidy.kept i hmem).regular
      have hproper := Store.proper_of_regular hregular (c := .delete i.kind.name i.ident) rfl rfl
      obtain ⟨d, happly, w⟩ :=
        hs.atRest.apply_yields (unpaired_batchName s.nextBatch) (Store.storable_of_delete hproper)
      have hflush := flush_yields (s := s) (l := Store.single (.delete i.kind.name i.ident)) rfl
        (by simp [Store.single, ChangeList.added]) happly
      rw [hi] at hremove
      exact ⟨_, _, _, Store.delete_yields hs.represents hs.ready hstored hflush, hremove,
        hs.without i.ident w, fun _ _ => trivial⟩

section Acting

variable {action : TaskAction} {ident : Text} {acted : Item} {e : Failure} {answer : Response}

/-- An action that is refused leaves the shelf as it is. -/
theorem Shelf.act_yields_refused (hi : h.item? ident = some i)
    (hacted : i.acted action h.around.input = .error e) : (act action ident).Yields h (.error e) h := by
  refine (fetch_yields hi).bind (yields_state_bind_iff.2 ?_)
  dsimp only
  rw [hacted]
  exact (yields_fail e h).bind_error

/-- An action after which the item cannot be shown leaves the shelf as it is. -/
theorem Shelf.act_yields_unshown (hi : h.item? ident = some i)
    (hacted : i.acted action h.around.input = .ok acted)
    (hpage : (acted.showPage h.around).Yields () (.error e) ()) :
    (act action ident).Yields h (.error e) h := by
  refine (fetch_yields hi).bind (yields_state_bind_iff.2 ?_)
  dsimp only
  rw [hacted]
  exact yields_ofExcept_ok_bind_iff.2 hpage.lift.bind_error

/-- After an action the changed item is put on the shelf, and the answer shows it. -/
theorem Shelf.act_yields {r : Except Failure Item} {h' : Shelf} (hi : h.item? ident = some i)
    (hacted : i.acted action h.around.input = .ok acted)
    (hpage : (acted.showPage h.around).Yields () (.ok answer) ()) (hwrite : (write acted).Yields h r h') :
    (act action ident).Yields h (r.map fun _ => answer) h' := by
  have hdiscard := hwrite.discard
  refine (fetch_yields hi).bind (yields_state_bind_iff.2 ?_)
  dsimp only
  rw [hacted]
  refine yields_ofExcept_ok_bind_iff.2 (hpage.lift.bind ?_)
  cases r with
  | error e => exact hdiscard.bind_error
  | ok j => exact hdiscard.bind (yields_pure answer h')

/-- An action changes the item on the shelf. -/
theorem simulates_act (action : TaskAction) (ident : Text) :
    Simulates (Dispatch.actOnItem (.onTask action) ident) (Shelf.act action ident) fun _ => True := by
  intro s h hs
  cases hi : h.item? ident with
  | none =>
      exact ⟨_, s, h, (hs.find_yields_none hi).bind_error, (Shelf.fetch_yields_none hi).bind_error, hs,
        by simp⟩
  | some i =>
      have hmem := (hs.tidy.item?_eq_some_iff.1 hi).1
      have k := hs.tidy.kept i hmem
      have hfind : (Store.find ident).Yields s (.ok i) s :=
        (hs.tidy.item?_eq_some_iff.1 hi).2 ▸ hs.find_yields hmem
      have hact := k.regular.act_yields action s.surroundings
      cases hacted : i.acted action s.surroundings.input with
      | error e =>
          rw [hacted] at hact
          exact ⟨_, s, h, Dispatch.actOnItem_yields_error hfind hact,
            Shelf.act_yields_refused hi (hs.around ▸ hacted), hs, by simp⟩
      | ok acted =>
          rw [hacted] at hact
          dsimp only at hact
          have hshown := yields_run (acted.showPage s.surroundings) ()
          cases hpage : (run (acted.showPage s.surroundings) ()).result with
          | error e =>
              rw [hpage] at hact hshown
              exact ⟨_, s, h, Dispatch.actOnItem_yields_error hfind hact,
                Shelf.act_yields_unshown hi (hs.around ▸ hacted) (hs.around ▸ hshown), hs, by simp⟩
          | ok answer =>
              rw [hpage] at hact hshown
              have hop : Operation.update ≠ .delete := by decide
              have hnamed : acted.Named := by
                obtain ⟨_, _, _, -, rfl⟩ := Item.acted_eq hacted
                exact k.named
              obtain ⟨r, s', h', i', hsave, hwrite, hs', -⟩ :=
                simulatesOn_save (k.regular.acted hacted) (k.clean.acted hacted) hnamed hop s h hs
              have hdone := Dispatch.actOnItem_yields (a := .onTask action) hfind hact hsave
              have hshelf := Shelf.act_yields hi (hs.around ▸ hacted) (hs.around ▸ hshown) hwrite
              cases r with
              | error e => exact ⟨_, s', h', hdone, hshelf, hs', by simp⟩
              | ok j => exact ⟨_, s', h', hdone, hshelf, hs', by simp⟩

end Acting

theorem simulates_dispatch (name ident : Text) :
    Simulates (Dispatch.dispatch name ident) (Shelf.dispatch name ident) fun _ => True := by
  refine (simulates_ofExcept (Action.ofName name)).bind fun action _ => ?_
  refine .after_looking (fun _ hr => hr.ensureOpen) (.after_looking (fun s _ => yields_report _ s) ?_)
  cases action with
  | onTask a => exact simulates_act a ident
  | delete =>
      refine (simulates_delete ident).bind fun b _ => ?_
      cases b with
      | true => exact simulates_pure trivial
      | false => exact simulates_fail _

/-- Opening a repository at rest changes nothing. -/
theorem recover_yields {m : Contents} {d : Disk} (w : AtRest m d) :
    Repository.recover.Yields d (.ok ()) d := by
  exact (Repository.recoverProgram_runs_skip fun name h => w.settled.others name _ h).yields

theorem simulates_reopen :
    Simulates Session.openRepository (pure () : Procedure Shelf Unit) fun _ => True := by
  intro s h hs
  have hopen : Session.openRepository.Yields s (.ok ()) { s with attached := true } := by
    refine (Yields.onPart (s := s) (recover_yields hs.atRest)).bind ?_
    exact yields_modify _ s
  exact ⟨_, _, h, hopen, yields_pure () h, ⟨hs.registry, ⟨hs.ready.closed, rfl⟩, hs.around, hs.clock,
    hs.nextItem, hs.recordable, hs.user, hs.tidy, hs.atRest⟩, fun _ _ => trivial⟩

end Writing

end RecordStore
