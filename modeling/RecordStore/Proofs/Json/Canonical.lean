import Mathlib.Data.List.Nodup
import RecordStore.Proofs.Json.Ascii
import RecordStore.Proofs.TextOrder

/-!
# RecordStore.Proofs.Json.Canonical

Sorted keys choose one value out of all that differ in nothing but the order of members.

Two values are `Reordered` when one comes from the other by putting the members of objects, at any
depth, in another order.  Sorting the keys is such a change (`reordered_sortKeys`), and it forgets
the old order: on `Plain` values, which have no key twice in an object, being reordered is having the
same sorted form (`Plain.reordered_iff`).

Plain values are also those that can be written as characters and read back: they hold neither
floating-point numbers nor integers that are too long nor lone surrogates.
-/

namespace RecordStore

/-! ## Plain texts -/

namespace Text

theorem plain_iff_forall {t : Text} : t.Plain ↔ ∀ g ∈ t, g.toChar?.isSome := by
  constructor
  · rintro ⟨cs, rfl⟩ g hg
    obtain ⟨c, -, rfl⟩ := List.mem_map.1 hg
    rfl
  · intro h
    induction t with
    | nil => exact ⟨[], rfl⟩
    | cons g t ih =>
        obtain ⟨cs, rfl⟩ := ih fun x hx => h x (List.mem_cons_of_mem _ hx)
        cases g with
        | surrogate i => exact absurd (h _ List.mem_cons_self) (by simp [Glyph.toChar?])
        | char c => exact ⟨c :: cs, rfl⟩

instance (t : Text) : Decidable t.Plain := decidable_of_iff _ plain_iff_forall.symm

end Text

namespace Json

/-! ## Values up to the order of members -/

/-- Equality of values up to the order of the members of their objects, at every depth. -/
inductive Reordered : Json → Json → Prop
  | refl (v : Json) : Reordered v v
  | trans {u v w : Json} (h : Reordered u v) (h' : Reordered v w) : Reordered u w
  | members {ms ms' : Members} (h : ms.Perm ms') : Reordered (.obj ms) (.obj ms')
  | item {v w : Json} (before behind : List Json) (h : Reordered v w) :
      Reordered (.arr (before ++ v :: behind)) (.arr (before ++ w :: behind))
  | value {v w : Json} (before behind : Members) (key : Text) (h : Reordered v w) :
      Reordered (.obj (before ++ (key, v) :: behind)) (.obj (before ++ (key, w) :: behind))

theorem Reordered.symm {v w : Json} (h : Reordered v w) : Reordered w v := by
  induction h with
  | refl v => exact .refl v
  | trans _ _ ih ih' => exact .trans ih' ih
  | members hp => exact .members hp.symm
  | item before behind _ ih => exact .item before behind ih
  | value before behind key _ ih => exact .value before behind key ih

/-- A value that is written as characters and read back: no floating-point numbers, no integers that
are too long, no lone surrogates, and no key twice in an object. -/
inductive Plain : Json → Prop
  | null : Plain .null
  | bool (b : Bool) : Plain (.bool b)
  | int {n : Int} (h : (Nat.toDigits 10 n.natAbs).length ≤ digitLimit) : Plain (.int n)
  | str {t : Text} (h : t.Plain) : Plain (.str t)
  | arr {items : List Json} (h : ∀ v ∈ items, Plain v) : Plain (.arr items)
  | obj {members : Members} (keys : members.keys.Nodup) (plain : ∀ m ∈ members, m.1.Plain)
      (h : ∀ m ∈ members, Plain m.2) : Plain (.obj members)

/-- What is reordered stays plain. -/
theorem Reordered.plain {v w : Json} (h : Reordered v w) (hv : Plain v) : Plain w := by
  induction h with
  | refl v => exact hv
  | trans _ _ ih ih' => exact ih' (ih hv)
  | members hp =>
      cases hv with
      | obj keys plain h =>
          exact .obj ((hp.map Prod.fst).nodup_iff.1 keys) (fun m hm => plain m (hp.mem_iff.2 hm))
            fun m hm => h m (hp.mem_iff.2 hm)
  | @item v w before behind _ ih =>
      cases hv with
      | arr h =>
          rw [List.forall_mem_append, List.forall_mem_cons] at h
          refine .arr ?_
          rw [List.forall_mem_append, List.forall_mem_cons]
          exact ⟨h.1, ih h.2.1, h.2.2⟩
  | @value v w before behind key _ ih =>
      cases hv with
      | obj keys plain h =>
          rw [List.forall_mem_append, List.forall_mem_cons] at plain h
          refine .obj (by simpa [Members.keys] using keys) ?_ ?_
          · rw [List.forall_mem_append, List.forall_mem_cons]
            exact plain
          · rw [List.forall_mem_append, List.forall_mem_cons]
            exact ⟨h.1, ih h.2.1, h.2.2⟩

/-! ## The sorted form -/

theorem sortKeysItems_eq_map (items : List Json) : sortKeysItems items = items.map sortKeys := by
  induction items with
  | nil => rfl
  | cons v vs ih => rw [sortKeysItems, ih, List.map_cons]

theorem sortKeysMembers_eq_map (ms : Members) :
    sortKeysMembers ms = ms.map fun m => (m.1, m.2.sortKeys) := by
  induction ms with
  | nil => rfl
  | cons m ms ih => rw [sortKeysMembers, ih, List.map_cons]

theorem keys_sortKeysMembers (ms : Members) : Members.keys (sortKeysMembers ms) = ms.keys := by
  simp [sortKeysMembers_eq_map, Members.keys]

theorem sortByKey_perm (ms : Members) : (sortByKey ms).Perm ms := List.mergeSort_perm ms _

theorem pairwise_sortByKey (ms : Members) :
    (sortByKey ms).Pairwise fun a b => a.1.ble b.1 = true :=
  List.pairwise_mergeSort (fun a b c => Text.ble_trans a.1 b.1 c.1)
    (fun a b => Text.ble_total a.1 b.1) ms

/-- The old order of members is forgotten where no key stands twice. -/
theorem sortByKey_eq_of_perm {ms ms' : Members} (hp : ms.Perm ms') (h : ms.keys.Nodup) :
    sortByKey ms = sortByKey ms' := by
  have hall := ((sortByKey_perm ms).trans hp).trans (sortByKey_perm ms').symm
  have hnodup : (sortByKey ms).keys.Nodup := ((sortByKey_perm ms).map Prod.fst).nodup_iff.2 h
  refine hall.eq_of_pairwise (fun a b ha hb hab hba => ?_) (pairwise_sortByKey ms)
    (pairwise_sortByKey ms')
  exact List.inj_on_of_nodup_map hnodup ha (hall.mem_iff.2 hb) (Text.ble_antisymm hab hba)

mutual

/-- Sorting the keys changes the order of members only. -/
theorem reordered_sortKeys : ∀ v : Json, Reordered v v.sortKeys
  | .null => .refl _
  | .bool _ => .refl _
  | .int _ => .refl _
  | .float _ => .refl _
  | .str _ => .refl _
  | .arr items => by
      rw [sortKeys]
      exact reordered_sortKeysItems [] items
  | .obj ms => by
      rw [sortKeys]
      exact .trans (reordered_sortKeysMembers [] ms) (.members (sortByKey_perm _).symm)

/-- The items of an array are reordered one by one. -/
theorem reordered_sortKeysItems (before : List Json) :
    ∀ items : List Json, Reordered (.arr (before ++ items)) (.arr (before ++ sortKeysItems items))
  | [] => .refl _
  | v :: vs => by
      have hrest := reordered_sortKeysItems (before ++ [v.sortKeys]) vs
      rw [List.append_assoc, List.append_assoc] at hrest
      rw [sortKeysItems]
      exact .trans (.item before vs (reordered_sortKeys v)) hrest

/-- The values of an object are reordered one by one. -/
theorem reordered_sortKeysMembers (before : Members) :
    ∀ ms : Members, Reordered (.obj (before ++ ms)) (.obj (before ++ sortKeysMembers ms))
  | [] => .refl _
  | (k, v) :: ms => by
      have hrest := reordered_sortKeysMembers (before ++ [(k, v.sortKeys)]) ms
      rw [List.append_assoc, List.append_assoc] at hrest
      rw [sortKeysMembers]
      exact .trans (.value before ms k (reordered_sortKeys v)) hrest

end

theorem Plain.sortKeys {v : Json} (h : Plain v) : Plain v.sortKeys :=
  (reordered_sortKeys v).plain h

/-- Reordered values have one sorted form. -/
theorem Reordered.sortKeys_eq {v w : Json} (h : Reordered v w) (hv : Plain v) :
    v.sortKeys = w.sortKeys := by
  induction h with
  | refl v => rfl
  | trans h _ ih ih' => exact (ih hv).trans (ih' (h.plain hv))
  | @members ms ms' hp =>
      cases hv with
      | obj keys =>
          have hsorted : (sortKeysMembers ms).Perm (sortKeysMembers ms') := by
            rw [sortKeysMembers_eq_map, sortKeysMembers_eq_map]
            exact hp.map _
          rw [Json.sortKeys, Json.sortKeys,
            sortByKey_eq_of_perm hsorted (by rw [keys_sortKeysMembers]; exact keys)]
  | @item v w before behind _ ih =>
      cases hv with
      | arr h =>
          rw [List.forall_mem_append, List.forall_mem_cons] at h
          simp only [Json.sortKeys, sortKeysItems_eq_map, List.map_append, List.map_cons, ih h.2.1]
  | @value v w before behind key _ ih =>
      cases hv with
      | obj _ _ h =>
          rw [List.forall_mem_append, List.forall_mem_cons] at h
          simp only [Json.sortKeys, sortKeysMembers_eq_map, List.map_append, List.map_cons,
            ih h.2.1]

/-- Plain values are equal up to the order of members exactly when their sorted forms are equal. -/
theorem Plain.reordered_iff {v w : Json} (hv : Plain v) : Reordered v w ↔ v.sortKeys = w.sortKeys := by
  constructor
  · exact fun h => h.sortKeys_eq hv
  · intro h
    have hw := (reordered_sortKeys w).symm
    rw [← h] at hw
    exact .trans (reordered_sortKeys v) hw

/-! ## The text of a plain value -/

theorem Plain.readable {v : Json} (h : Plain v) : Readable v := by
  induction h with
  | null => exact .null
  | bool b => exact .bool b
  | int h => exact .int h
  | str h =>
      obtain ⟨cs, rfl⟩ := h
      exact .str (unpaired_ofChars cs)
  | arr _ ih => exact .arr ih
  | obj keys plain _ ih =>
      refine .obj keys (fun m hm => ?_) ih
      obtain ⟨cs, hcs⟩ := plain m hm
      rw [hcs]
      exact unpaired_ofChars cs

theorem digitsWithinItems_eq_all (limit : Nat) (items : List Json) :
    digitsWithinItems limit items = items.all (digitsWithin limit) := by
  induction items with
  | nil => rfl
  | cons v vs ih => rw [digitsWithinItems, ih, List.all_cons]

theorem digitsWithinMembers_eq_all (limit : Nat) (ms : Members) :
    digitsWithinMembers limit ms = ms.all fun m => m.2.digitsWithin limit := by
  induction ms with
  | nil => rfl
  | cons m ms ih => rw [digitsWithinMembers, ih, List.all_cons]

theorem Plain.digitsWithin {v : Json} (h : Plain v) : v.digitsWithin digitLimit = true := by
  induction h with
  | null | bool | str => rfl
  | int h => simpa [Json.digitsWithin] using h
  | arr _ ih => rw [Json.digitsWithin, digitsWithinItems_eq_all, List.all_eq_true]; exact ih
  | obj _ _ _ ih => rw [Json.digitsWithin, digitsWithinMembers_eq_all, List.all_eq_true]; exact ih

/-- A glyph that is a character. -/
def IsChar (g : Glyph) : Prop := g.toChar?.isSome

theorem isChar_of_isAscii (g : Glyph) (h : isAscii g = true) : IsChar g := by
  cases g with
  | char c => rfl
  | surrogate i => cases h

theorem isChar_of_mem_writeGlyph {g x : Glyph} (hg : IsChar g) (h : x ∈ writeGlyph .unicode g) :
    IsChar x := by
  rw [writeGlyph.eq_def] at h
  split at h
  case h_8 =>
    dsimp only at h
    split at h
    · exact isChar_of_isAscii x (isAscii_of_mem_unicodeEscape h)
    · rw [if_pos (.inl rfl)] at h
      obtain rfl := List.mem_singleton.1 h
      exact hg
  all_goals
    refine isChar_of_isAscii x ?_
    revert x
    decide

theorem isChar_of_mem_writeString {t : Text} (ht : t.Plain) {x : Glyph}
    (h : x ∈ writeString .unicode t) : IsChar x := by
  simp only [writeString, List.mem_append, List.mem_singleton, List.mem_flatMap] at h
  rcases h with (rfl | ⟨g, hg, h⟩) | rfl
  · rfl
  · exact isChar_of_mem_writeGlyph (Text.plain_iff_forall.1 ht g hg) h
  · rfl

theorem Plain.isChar_of_mem_writeAt {v : Json} (h : Plain v) {depth : Nat} {x : Glyph}
    (hx : x ∈ writeAt .unicode depth v) : IsChar x := by
  induction h generalizing depth x with
  | null =>
      have hx : x ∈ writeAt .ascii depth .null := hx
      exact isChar_of_isAscii x (Readable.null.isAscii_of_mem_writeAt hx)
  | bool b =>
      have hx : x ∈ writeAt .ascii depth (.bool b) := hx
      exact isChar_of_isAscii x ((Readable.bool b).isAscii_of_mem_writeAt hx)
  | @int n h =>
      have hx : x ∈ writeAt .ascii depth (.int n) := hx
      exact isChar_of_isAscii x ((Readable.int h).isAscii_of_mem_writeAt hx)
  | str h => exact isChar_of_mem_writeString h hx
  | arr _ ih =>
      rw [writeAt] at hx
      refine of_mem_block isChar_of_isAscii (by decide) (by decide) ?_ hx
      intro part hpart y hy
      obtain ⟨v, hv, rfl⟩ := exists_of_mem_writeItems hpart
      exact ih v hv hy
  | obj _ plain _ ih =>
      rw [writeAt] at hx
      refine of_mem_block isChar_of_isAscii (by decide) (by decide) ?_ hx
      intro part hpart y hy
      obtain ⟨m, hm, rfl⟩ := exists_of_mem_writeMembers hpart
      rw [List.mem_append, List.mem_append] at hy
      rcases hy with (hy | hy) | hy
      · exact isChar_of_mem_writeString (plain m hm) hy
      · refine isChar_of_isAscii y ?_
        revert y
        decide
      · exact ih m hm hy

/-- What is written for a plain value holds characters only. -/
theorem Plain.plain_write {v : Json} (h : Plain v) : (v.write .unicode).Plain :=
  Text.plain_iff_forall.2 fun _ => h.isChar_of_mem_writeAt

end Json

end RecordStore
