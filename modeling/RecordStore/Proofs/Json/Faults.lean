import RecordStore.Proofs.Json.Digits
import RecordStore.Proofs.Json.RoundTrip

/-!
# RecordStore.Proofs.Json.Faults

How reading a text fails.  A reading stays in its text (`StaysIn`): what it leaves is the end of the
text, and where it fails by an integer that is too long, the digits of this integer stand in the text.
So only a text with such a run of digits is refused for it (`longRun_of_read`).
-/

namespace RecordStore.Json

/-! ## Readings that stay in their text -/

/-- A run of digits in a text that is longer than an integer may be. -/
def LongRun (n : Nat) (t : Text) : Prop :=
  digitLimit < n ∧ ∃ ds, ds <:+: t ∧ ds.length = n ∧ ∀ d ∈ ds, isDigit d = true

theorem LongRun.mono {n : Nat} {t t' : Text} (h : LongRun n t) (ht : t <:+: t') : LongRun n t' := by
  obtain ⟨hn, ds, hds, hrun⟩ := h
  exact ⟨hn, ds, hds.trans ht, hrun⟩

/-- A reading that leaves the end of its text, or fails by a run of digits in it. -/
def StaysIn {α : Type} (t : Text) : Reading α → Prop
  | .ok (_, rest) => rest <:+ t
  | .error (.problem _ _) => True
  | .error (.longInteger n) => LongRun n t

namespace StaysIn

variable {α β : Type} {t t' : Text} {x : Reading α}

theorem mono (h : StaysIn t x) (ht : t <:+ t') : StaysIn t' x := by
  match x, h with
  | .ok (_, rest), h => exact h.trans ht
  | .error (.problem _ _), _ => trivial
  | .error (.longInteger n), h => exact LongRun.mono h ht.isInfix

theorem map (h : StaysIn t x) (f : α → β) : StaysIn t (x.map fun (a, rest) => (f a, rest)) := by
  match x, h with
  | .ok (_, rest), h => exact h
  | .error (.problem _ _), _ => trivial
  | .error (.longInteger n), h => exact h

/-- A reading that fails stays in its text whatever it would have read. -/
theorem error {e : Fault} (h : StaysIn t (.error e : Reading α)) : StaysIn t (.error e : Reading β) := by
  match e, h with
  | .problem _ _, _ => trivial
  | .longInteger n, h => exact h

end StaysIn

theorem skipSpace_suffix (t : Text) : skipSpace t <:+ t := List.dropWhile_suffix _

/-- What stands behind the blanks is behind their text. -/
theorem suffix_of_skipSpace {t rest : Text} {g : Glyph} (h : skipSpace t = g :: rest) : rest <:+ t :=
  (List.suffix_cons g rest).trans (h ▸ skipSpace_suffix t)

/-! ## Strings -/

theorem staysIn_consGlyph {t : Text} (g : Glyph) {x : Reading Text} (h : StaysIn t x) :
    StaysIn t (consGlyph g x) := by
  match x, h with
  | .ok (_, rest), h => exact h
  | .error (.problem _ _), _ => trivial
  | .error (.longInteger n), h => exact h

theorem staysIn_consUnit {t : Text} (g : Glyph) (after : Text) {x : Reading Text} (h : StaysIn t x) :
    StaysIn t (consUnit g after x) := by
  unfold consUnit
  split
  · split <;> exact h
  · exact staysIn_consGlyph g h

/-- A string stays in its text; along the recursion of the reader. -/
theorem staysIn_readInside (start t : Text) : StaysIn t (readInside start t) := by
  fun_induction readInside start t with
  | case1 => trivial
  | case2 rest => exact List.suffix_cons _ _
  | case3 => trivial
  | case4 a b c d e rest n _ ih =>
      exact staysIn_consUnit _ _ (ih.mono ⟨[.char '\\', .char 'u', a, b, c, d], rfl⟩)
  | case5 => trivial
  | case6 => trivial
  | case7 g rest _ c _ ih => exact staysIn_consGlyph _ (ih.mono ⟨[.char '\\', g], rfl⟩)
  | case8 => trivial
  | case9 => trivial
  | case10 g rest _ _ _ _ _ ih => exact staysIn_consGlyph _ (ih.mono (List.suffix_cons _ _))

theorem staysIn_readString (t : Text) : StaysIn (.char '"' :: t) (readString t) :=
  (staysIn_readInside _ t).mono (List.suffix_cons _ t)

/-! ## Numbers -/

theorem readWhole?_eq {t ds rest : Text} (h : readWhole? t = some (ds, rest)) : t = ds ++ rest := by
  unfold readWhole? at h
  split at h
  · cases h
    rfl
  · split at h
    · cases h
    · cases h
      exact List.takeWhile_append_dropWhile.symm

theorem readFraction?_suffix {t ds rest : Text} (h : readFraction? t = some (ds, rest)) : rest <:+ t := by
  unfold readFraction? at h
  split at h
  · split at h
    · cases h
    · cases h
      exact (List.dropWhile_suffix _).trans (List.suffix_cons _ _)
  · cases h

theorem readSign_suffix (t : Text) : (readSign t).2 <:+ t := by
  unfold readSign
  split
  · exact List.suffix_cons _ _
  · exact List.suffix_cons _ _
  · exact List.suffix_refl _

theorem readExponent?_suffix {t rest : Text} {e : Int} (h : readExponent? t = some (e, rest)) :
    rest <:+ t := by
  unfold readExponent? at h
  split at h
  · next g t =>
    split at h
    · dsimp only at h
      split at h
      · cases h
      · cases h
        exact ((List.dropWhile_suffix _).trans (readSign_suffix t)).trans (List.suffix_cons _ _)
    · cases h
  · cases h

/-- An integer is made of the digits that were read, or refused as a run of them. -/
theorem staysIn_integer {negative : Bool} {t ds rest : Text} (h : readWhole? t = some (ds, rest)) :
    StaysIn t ((integer negative ds).map (·, rest)) := by
  have ht := readWhole?_eq h
  unfold integer
  split
  · next hlong => exact ⟨hlong, ds, ⟨[], rest, ht.symm⟩, rfl, isDigit_of_readWhole? h⟩
  · exact ⟨ds, ht.symm⟩

theorem staysIn_readUnsigned? {negative : Bool} {t : Text} {x : Reading Json}
    (h : readUnsigned? negative t = some x) : StaysIn t x := by
  unfold readUnsigned? at h
  split at h
  · cases h
  · next whole rest hwhole =>
    have hrest : rest <:+ t := ⟨whole, (readWhole?_eq hwhole).symm⟩
    split at h
    · split at h
      · cases h
        exact staysIn_integer hwhole
      · next hexponent =>
        cases h
        exact (readExponent?_suffix hexponent).trans hrest
    · next fraction rest' hfraction =>
      cases h
      have hbehind : ((readExponent? rest').getD (0, rest')).2 <:+ rest' := by
        cases hexponent : readExponent? rest' with
        | none => exact List.suffix_refl _
        | some r => exact readExponent?_suffix hexponent
      exact (hbehind.trans (readFraction?_suffix hfraction)).trans hrest

theorem staysIn_readAtom (t : Text) : StaysIn t (readAtom t) := by
  unfold readAtom
  split
  · next r hword =>
    obtain ⟨⟨word, w⟩, -, hsome⟩ := List.exists_of_findSome?_eq_some hword
    obtain ⟨rest, hprefix, rfl⟩ := Option.map_eq_some_iff.1 hsome
    exact ⟨word, (Text.dropPrefix?_eq_some_iff.1 hprefix).symm⟩
  · have hnumber : ∀ {x : Option (Reading Json)}, (∀ r, x = some r → StaysIn t r) →
        StaysIn t (x.getD (.error (.problem .expectedValue t))) := by
      intro x hx
      cases x with
      | none => trivial
      | some r => exact hx r rfl
    refine hnumber fun r hr => ?_
    split at hr
    · exact (staysIn_readUnsigned? hr).mono (List.suffix_cons _ _)
    · exact staysIn_readUnsigned? hr

/-! ## Values -/

section Steps

variable {fuel : Nat}

/-- A value stays in its text where the items and the members in it do. -/
theorem staysIn_readValue_succ (hitems : ∀ t, StaysIn t (readItems fuel t))
    (hmembers : ∀ t, StaysIn t (readMembers fuel t)) (t : Text) :
    StaysIn t (readValue (fuel + 1) t) := by
  rw [readValue.eq_def]
  dsimp only
  split
  · exact (staysIn_readString _).map Json.str
  · next rest =>
    have hcons : rest <:+ .char '[' :: rest := List.suffix_cons _ _
    split
    · next hspace => exact (suffix_of_skipSpace hspace).trans hcons
    · exact ((hitems _).mono ((skipSpace_suffix rest).trans hcons)).map Json.arr
  · next rest =>
    have hcons : rest <:+ .char '\x7b' :: rest := List.suffix_cons _ _
    split
    · next hspace => exact (suffix_of_skipSpace hspace).trans hcons
    · exact ((hmembers _).mono ((skipSpace_suffix rest).trans hcons)).map
        fun ms => Json.obj (Members.ofList ms)
  · exact staysIn_readAtom _

/-- Items stay in their text where the first value and those behind it do. -/
theorem staysIn_readItems_succ (hvalue : ∀ t, StaysIn t (readValue fuel t))
    (hitems : ∀ t, StaysIn t (readItems fuel t)) (t : Text) :
    StaysIn t (readItems (fuel + 1) t) := by
  have hfirst := hvalue t
  rw [readItems.eq_def]
  dsimp only
  split
  · next hread => exact (hread ▸ hfirst).error
  · next v rest hread =>
    have hrest : rest <:+ t := by rwa [hread] at hfirst
    split
    · next hspace => exact (suffix_of_skipSpace hspace).trans hrest
    · next behind hspace =>
      have hbehind := (suffix_of_skipSpace hspace).trans hrest
      exact ((hitems _).mono ((skipSpace_suffix behind).trans hbehind)).map (List.cons v)
    · trivial

/-- Members stay in their text where the first value and those behind it do. -/
theorem staysIn_readMembers_succ (hvalue : ∀ t, StaysIn t (readValue fuel t))
    (hmembers : ∀ t, StaysIn t (readMembers fuel t)) (t : Text) :
    StaysIn t (readMembers (fuel + 1) t) := by
  rw [readMembers.eq_def]
  dsimp only
  split
  · next t =>
    have hkey := staysIn_readString t
    split
    · next hread => exact (hread ▸ hkey).error
    · next k rest hread =>
      have hrest : rest <:+ .char '"' :: t := by rwa [hread] at hkey
      split
      · next behind hspace =>
        have hbehind := (suffix_of_skipSpace hspace).trans hrest
        have hfirst := (hvalue (skipSpace behind)).mono ((skipSpace_suffix behind).trans hbehind)
        split
        · next hread => exact (hread ▸ hfirst).error
        · next v rest' hread =>
          have hrest' : rest' <:+ .char '"' :: t := by rwa [hread] at hfirst
          split
          · next hspace => exact (suffix_of_skipSpace hspace).trans hrest'
          · next behind' hspace =>
            have hbehind' := (suffix_of_skipSpace hspace).trans hrest'
            exact ((hmembers _).mono ((skipSpace_suffix behind').trans hbehind')).map (List.cons (k, v))
          · trivial
      · trivial
  · trivial

end Steps

/-- Reading with some fuel stays in the text; by induction on the fuel, for values, items and members at
once. -/
theorem staysIn_readWith (fuel : Nat) :
    (∀ t, StaysIn t (readValue fuel t)) ∧ (∀ t, StaysIn t (readItems fuel t))
      ∧ ∀ t, StaysIn t (readMembers fuel t) := by
  induction fuel with
  | zero => exact ⟨fun _ => trivial, fun _ => trivial, fun _ => trivial⟩
  | succ fuel ih =>
      obtain ⟨hvalue, hitems, hmembers⟩ := ih
      exact ⟨staysIn_readValue_succ hitems hmembers, staysIn_readItems_succ hvalue hitems,
        staysIn_readMembers_succ hvalue hmembers⟩

section Members

variable {fuel : Nat} {t k behind next : Text} {v : Json} {e : Fault}

/-- Members fail where the first value of them does. -/
theorem readMembers_of_value_error (hk : readString t = .ok (k, .char ':' :: behind))
    (hv : readValue fuel (skipSpace behind) = .error e) :
    readMembers (fuel + 1) (.char '"' :: t) = .error e := by
  have hcolon := skipSpace_cons (show isSpace (.char ':') = false from rfl) behind
  simp only [readMembers, hk, hcolon, hv]

/-- Members fail where those behind the first one do. -/
theorem readMembers_of_rest_error (hk : readString t = .ok (k, .char ':' :: behind))
    (hv : readValue fuel (skipSpace behind) = .ok (v, .char ',' :: next))
    (hnext : readMembers fuel (skipSpace next) = .error e) :
    readMembers (fuel + 1) (.char '"' :: t) = .error e := by
  rw [readMembers_next hk hv (skipSpace_cons (by decide) next), hnext]
  rfl

end Members

/-- **Integers that are too long.** A text that is refused for one has its digits in it. -/
theorem longRun_of_read {t : Text} {n : Nat} (h : read t = .error (.longInteger n)) : LongRun n t := by
  have hfault : readText t = .error (.longInteger n) := by
    unfold read at h
    cases hr : readText t with
    | ok v => rw [hr] at h; cases h
    | error e =>
        rw [hr] at h
        cases e with
        | problem kind rest => cases h
        | longInteger m => cases h; rfl
  unfold readText at hfault
  split at hfault
  · cases hfault
  · have hvalue := (staysIn_readWith (fuelFor t)).1 (skipSpace t)
    split at hfault
    · next hread =>
      cases hfault
      rw [hread] at hvalue
      exact LongRun.mono hvalue (skipSpace_suffix t).isInfix
    · split at hfault <;> cases hfault

end RecordStore.Json
