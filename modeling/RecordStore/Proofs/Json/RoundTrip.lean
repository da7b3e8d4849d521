import Mathlib.Data.List.TakeWhile
import RecordStore.Proofs.Json.Strings

/-!
# RecordStore.Proofs.Json.RoundTrip

Reading gives back what was written (`read_write`).  It does for every value that is `Readable`:
one without floating-point numbers, whose integers are not too long, whose texts are `Unpaired` and
whose objects have no key twice.

The proof is an induction over the value.  A value is read back with any text behind it that does
not go on with a number, and with any fuel from twice the length of the written text on
(`ReadsBack`).
-/

namespace RecordStore

namespace Members

theorem set_of_not_mem {key : Text} {ms : Members} (h : key ∉ ms.keys) (value : Json) :
    set key value ms = ms ++ [(key, value)] := by
  induction ms with
  | nil => rfl
  | cons m ms ih =>
      have hk : m.1 ≠ key := fun heq => h (heq ▸ List.mem_cons_self)
      have hms : key ∉ keys ms := fun hmem => h (List.mem_cons_of_mem _ hmem)
      rw [set, if_neg hk, ih hms, List.cons_append]

/-- Members that have no key twice stay as they are when they are put in one by one. -/
theorem ofList_of_nodup {ms : Members} (h : ms.keys.Nodup) : ofList ms = ms := by
  have hfold : ∀ es acc : Members, (keys (acc ++ es)).Nodup →
      es.foldl (fun ms e => set e.1 e.2 ms) acc = acc ++ es := by
    intro es
    induction es with
    | nil => exact fun acc _ => (List.append_nil acc).symm
    | cons e es ih =>
        intro acc hn
        have hkey : e.1 ∉ keys acc := by
          intro hmem
          rw [keys, List.map_append, List.map_cons, List.nodup_append] at hn
          exact hn.2.2 _ hmem _ List.mem_cons_self rfl
        rw [List.foldl_cons, set_of_not_mem hkey]
        have := ih (acc ++ [e]) (by simpa using hn)
        simpa using this
  exact hfold ms [] h

end Members

namespace Json

/-! ## Numbers -/

/-- A text that does not go on with the number in front of it. -/
def EndsNumber (t : Text) : Prop :=
  ∀ g ∈ t.head?, isDigit g = false ∧ g ≠ .char '.' ∧ g ≠ .char 'e' ∧ g ≠ .char 'E'

theorem endsNumber_cons {g : Glyph} {t : Text}
    (h : isDigit g = false ∧ g ≠ .char '.' ∧ g ≠ .char 'e' ∧ g ≠ .char 'E') :
    EndsNumber (g :: t) := by
  intro x hx
  cases hx
  exact h

theorem isDigit_of_mem_ofNat {n : Nat} {g : Glyph} (h : g ∈ Text.ofNat n) : isDigit g = true := by
  obtain ⟨c, hc, rfl⟩ := List.mem_map.1 h
  exact Nat.isDigit_of_mem_toDigits (by decide) (by decide) hc

theorem natOfDigits_ofNat (n : Nat) : natOfDigits (Text.ofNat n) = n := by
  have hfold : natOfDigits (Text.ofNat n) = Nat.ofDigitChars 10 (Nat.toDigits 10 n) 0 := by
    rw [Nat.ofDigitChars_eq_foldl, natOfDigits, Text.ofNat, Text.ofChars, List.foldl_map]
    rfl
  rw [hfold, Nat.ofDigitChars_ten_toDigits]

/-- Only zero is written with a zero in front. -/
theorem head?_toDigits_ne_zero {n : Nat} (h : n ≠ 0) : (Nat.toDigits 10 n).head? ≠ some '0' := by
  induction n using Nat.strongRecOn with
  | ind n ih =>
      by_cases hn : n < 10
      · rw [Nat.toDigits_of_lt_base hn]
        simp [h]
      · rw [Nat.toDigits_of_base_le (by decide) (by omega),
          List.head?_append_of_ne_nil _ Nat.toDigits_ne_nil]
        exact ih (n / 10) (by omega) (by omega)

/-- The digits of a number are taken from the front of a text as a whole. -/
theorem readWhole?_ofNat (n : Nat) {rest : Text} (h : EndsNumber rest) :
    readWhole? (Text.ofNat n ++ rest) = some (Text.ofNat n, rest) := by
  by_cases hn : n = 0
  · subst hn
    rfl
  · have hdigits : ∀ g ∈ Text.ofNat n, isDigit g = true := fun _ => isDigit_of_mem_ofNat
    have hhead : ∀ {g t}, Text.ofNat n = g :: t → g ≠ .char '0' := by
      rintro _ t ht rfl
      rw [Text.ofNat, Text.ofChars, List.map_eq_cons_iff] at ht
      obtain ⟨c, cs, hcs, hc, -⟩ := ht
      cases hc
      exact head?_toDigits_ne_zero hn (by rw [hcs]; rfl)
    have hrest : rest.takeWhile isDigit = [] ∧ rest.dropWhile isDigit = rest := by
      cases rest with
      | nil => exact ⟨rfl, rfl⟩
      | cons g t => simp [(h g rfl).1]
    have htake : (Text.ofNat n ++ rest).takeWhile isDigit = Text.ofNat n := by
      rw [List.takeWhile_append_of_pos hdigits, hrest.1, List.append_nil]
    have hdrop : (Text.ofNat n ++ rest).dropWhile isDigit = rest := by
      rw [List.dropWhile_append_of_pos hdigits, hrest.2]
    cases ht : Text.ofNat n with
    | nil => simp [Text.ofNat, Text.ofChars, Nat.toDigits_ne_nil] at ht
    | cons g t =>
        rw [ht] at htake hdrop
        rw [readWhole?.eq_def]
        split
        · next heq => exact absurd (List.cons.inj heq).1 (hhead ht)
        · rw [htake, hdrop]

theorem readFraction?_eq_none {rest : Text} (h : EndsNumber rest) : readFraction? rest = none := by
  cases rest with
  | nil => rfl
  | cons g t =>
      rw [readFraction?.eq_def]
      split
      · next heq => exact absurd (List.cons.inj heq).1 (h g rfl).2.1
      · rfl

theorem readExponent?_eq_none {rest : Text} (h : EndsNumber rest) : readExponent? rest = none := by
  cases rest with
  | nil => rfl
  | cons g t => simp [readExponent?, (h g rfl).2.2]

theorem readUnsigned?_ofNat (n : Nat) {rest : Text} (negative : Bool) (h : EndsNumber rest) :
    readUnsigned? negative (Text.ofNat n ++ rest)
      = some ((integer negative (Text.ofNat n)).map (·, rest)) := by
  simp only [readUnsigned?, readWhole?_ofNat n h, readFraction?_eq_none h, readExponent?_eq_none h]

theorem length_ofNat (n : Nat) : (Text.ofNat n).length = (Nat.toDigits 10 n).length := by
  rw [Text.ofNat, Text.ofChars, List.length_map]

theorem integer_ofNat {n : Nat} (negative : Bool) (hn : (Nat.toDigits 10 n).length ≤ digitLimit) :
    integer negative (Text.ofNat n) = .ok (.int (if negative then -n else n)) := by
  have hlength : ¬ digitLimit < (Text.ofNat n).length := by
    rw [length_ofNat]
    exact Nat.not_lt.2 hn
  simp only [integer, if_neg hlength, natOfDigits_ofNat]

theorem integer_ofNat_long {n : Nat} (negative : Bool) (hn : digitLimit < (Nat.toDigits 10 n).length) :
    integer negative (Text.ofNat n) = .error (.longInteger (Nat.toDigits 10 n).length) := by
  rw [← length_ofNat] at hn ⊢
  rw [integer, if_pos hn]

/-- No word begins with a digit, or with a minus sign and a digit. -/
theorem readWord?_eq_none_of_digit {g : Glyph} (h : isDigit g = true) (t : Text) :
    readWord? (g :: t) = none ∧ readWord? (.char '-' :: g :: t) = none := by
  have hne : ∀ c : Char, c.isDigit = false → Glyph.char c ≠ g := by
    rintro c hc rfl
    simp [isDigit, hc] at h
  have hword : ∀ (c : Char) (cs : List Char), c.isDigit = false →
      Text.dropPrefix? (Text.ofChars (c :: cs)) (g :: t) = none := by
    intro c cs hc
    have hcons : Text.ofChars (c :: cs) = .char c :: Text.ofChars cs := rfl
    rw [hcons, Text.dropPrefix?, if_neg (hne c hc)]
  constructor
  · rw [readWord?, List.findSome?_eq_none_iff]
    intro e he
    simp only [words, List.mem_cons, List.not_mem_nil, or_false] at he
    rcases he with rfl | rfl | rfl | rfl | rfl | rfl <;>
      exact Option.map_eq_none_iff.2 (hword _ _ (by decide))
  · rw [readWord?, List.findSome?_eq_none_iff]
    intro e he
    simp only [words, List.mem_cons, List.not_mem_nil, or_false] at he
    rcases he with rfl | rfl | rfl | rfl | rfl | rfl
    case inr.inr.inr.inr.inr =>
      exact Option.map_eq_none_iff.2 (hword 'I' "nfinity".toList (by decide))
    all_goals rfl

theorem ofNat_eq_cons (n : Nat) : ∃ g t, Text.ofNat n = g :: t ∧ isDigit g = true := by
  obtain ⟨g, t, hg⟩ : ∃ g t, Text.ofNat n = g :: t :=
    List.exists_cons_of_ne_nil (by simp [Text.ofNat, Text.ofChars, Nat.toDigits_ne_nil])
  exact ⟨g, t, hg, isDigit_of_mem_ofNat (n := n) (by rw [hg]; exact List.mem_cons_self)⟩

/-- A written integer begins with a digit, or with a minus sign. -/
theorem ofInt_eq_cons (n : Int) :
    ∃ g t, Text.ofInt n = g :: t ∧ (g = .char '-' ∨ isDigit g = true) := by
  obtain ⟨g, t, hg, hdigit⟩ := ofNat_eq_cons n.natAbs
  rw [Text.ofInt, hg]
  split
  · exact ⟨_, _, rfl, .inl rfl⟩
  · exact ⟨g, t, rfl, .inr hdigit⟩

/-- A written number is read as an integer, if it is not too long. -/
theorem readAtom_ofNat (n : Nat) {rest : Text} (h : EndsNumber rest) :
    readAtom (Text.ofNat n ++ rest) = (integer false (Text.ofNat n)).map (·, rest) := by
  obtain ⟨g, t, hg, hdigit⟩ := ofNat_eq_cons n
  have hw : readWord? (Text.ofNat n ++ rest) = none := by
    rw [hg]
    exact (readWord?_eq_none_of_digit hdigit (t ++ rest)).1
  have hminus : ∀ r, Text.ofNat n ++ rest = .char '-' :: r → False := by
    intro r heq
    rw [hg] at heq
    obtain rfl := (List.cons.inj heq).1
    cases hdigit
  rw [readAtom, hw]
  · simp only [readUnsigned?_ofNat n false h, Option.getD_some]
  · exact hminus

/-- A written integer is read back. -/
theorem readAtom_ofInt {n : Int} {rest : Text} (h : EndsNumber rest)
    (hn : (Nat.toDigits 10 n.natAbs).length ≤ digitLimit) :
    readAtom (Text.ofInt n ++ rest) = .ok (.int n, rest) := by
  by_cases hneg : n < 0
  · obtain ⟨g, t, hg, hdigit⟩ := ofNat_eq_cons n.natAbs
    have htext : Text.ofInt n ++ rest = .char '-' :: (Text.ofNat n.natAbs ++ rest) := by
      simp [Text.ofInt, hneg]
    have habs : -(n.natAbs : Int) = n := by omega
    have hw : readWord? (.char '-' :: (Text.ofNat n.natAbs ++ rest)) = none := by
      rw [hg]
      exact (readWord?_eq_none_of_digit hdigit (t ++ rest)).2
    rw [htext, readAtom, hw]
    simp only [readUnsigned?_ofNat n.natAbs true h, integer_ofNat true hn, Except.map,
      Option.getD_some, if_true, habs]
  · have htext : Text.ofInt n ++ rest = Text.ofNat n.natAbs ++ rest := by simp [Text.ofInt, hneg]
    have habs : (n.natAbs : Int) = n := by omega
    rw [htext, readAtom_ofNat n.natAbs h, integer_ofNat false hn]
    simp only [Except.map, Bool.false_eq_true, if_false, habs]

/-! ## Values that are read back -/

/-- A value that reading gives back: no floating-point numbers, no integers that are too long, no
texts with the halves of a pair apart, and no keys twice. -/
inductive Readable : Json → Prop
  | null : Readable .null
  | bool (b : Bool) : Readable (.bool b)
  | int {n : Int} (h : (Nat.toDigits 10 n.natAbs).length ≤ digitLimit) : Readable (.int n)
  | str {t : Text} (h : Unpaired t) : Readable (.str t)
  | arr {items : List Json} (h : ∀ v ∈ items, Readable v) : Readable (.arr items)
  | obj {members : Members} (keys : members.keys.Nodup)
      (plain : ∀ m ∈ members, Unpaired m.1) (h : ∀ m ∈ members, Readable m.2) :
      Readable (.obj members)

/-- A glyph that begins a value: no blank, no closing bracket and no byte order mark. -/
def opensValue (g : Glyph) : Bool :=
  !isSpace g && g ≠ .char ']' && g ≠ .char '}' && g ≠ .char '\uFEFF'

theorem opensValue_of_isDigit {g : Glyph} (h : isDigit g = true) : opensValue g = true := by
  have hne : ∀ c : Char, c.isDigit = false → g ≠ .char c := by
    rintro c hc rfl
    simp [isDigit, hc] at h
  have hspace : isSpace g = false := by
    simp only [isSpace, Bool.or_eq_false_iff, decide_eq_false_iff_not]
    exact ⟨⟨⟨hne _ (by decide), hne _ (by decide)⟩, hne _ (by decide)⟩, hne _ (by decide)⟩
  simp [opensValue, hspace, hne ']' (by decide), hne '}' (by decide), hne '\uFEFF' (by decide)]

variable {repertoire : Repertoire}

/-- Every written value begins as a value does. -/
theorem writeAt_eq_cons (repertoire : Repertoire) {v : Json} (h : Readable v) (depth : Nat) :
    ∃ g t, writeAt repertoire depth v = g :: t ∧ opensValue g = true := by
  cases h with
  | null => exact ⟨_, _, rfl, by decide⟩
  | bool b => cases b <;> exact ⟨_, _, rfl, by decide⟩
  | str => exact ⟨_, _, rfl, by decide⟩
  | arr => rw [writeAt, block.eq_def]; split <;> exact ⟨_, _, rfl, by decide⟩
  | obj => rw [writeAt, block.eq_def]; split <;> exact ⟨_, _, rfl, by decide⟩
  | @int n =>
      obtain ⟨g, t, ht, hg⟩ := ofInt_eq_cons n
      rw [writeAt]
      refine ⟨g, t, ht, ?_⟩
      rcases hg with rfl | hg
      · decide
      · exact opensValue_of_isDigit hg

theorem skipSpace_newLine (depth : Nat) (t : Text) :
    skipSpace (newLine depth ++ t) = skipSpace t := by
  have hblank : ∀ g ∈ newLine depth, isSpace g = true := by
    intro g hg
    rcases List.mem_cons.1 hg with rfl | hg
    · rfl
    · rw [List.eq_of_mem_replicate hg]; rfl
  rw [skipSpace, List.dropWhile_append_of_pos hblank, skipSpace]

theorem skipSpace_cons {g : Glyph} (h : isSpace g = false) (t : Text) :
    skipSpace (g :: t) = g :: t := by simp [skipSpace, h]

/-- A value that is read back, whatever follows it and however deep it stands. -/
def ReadsBack (repertoire : Repertoire) (v : Json) : Prop :=
  ∀ depth rest fuel, EndsNumber rest → 2 * (writeAt repertoire depth v).length ≤ fuel →
    readValue fuel (writeAt repertoire depth v ++ rest) = .ok (v, rest)

/-! ## Containers -/

theorem endsNumber_newLine (depth : Nat) (t : Text) : EndsNumber (newLine depth ++ t) :=
  endsNumber_cons (by decide)

theorem endsNumber_comma (t : Text) : EndsNumber (.char ',' :: t) := endsNumber_cons (by decide)

theorem isSpace_of_opensValue {g : Glyph} (h : opensValue g = true) : isSpace g = false := by
  simp only [opensValue, Bool.and_eq_true, Bool.not_eq_true'] at h
  exact h.1.1.1

/-- Parts of a container at a depth, each on a line of its own. -/
def lined (depth : Nat) (parts : List Text) : Text :=
  (.char ',' :: newLine depth).intercalate parts

@[simp] theorem lined_singleton (depth : Nat) (part : Text) : lined depth [part] = part :=
  List.intercalate_singleton

@[simp] theorem lined_cons_cons (depth : Nat) (part part' : Text) (parts : List Text) :
    lined depth (part :: part' :: parts)
      = part ++ .char ',' :: (newLine depth ++ lined depth (part' :: parts)) := by
  rw [lined, List.intercalate_cons_cons, lined, List.append_assoc]
  rfl

theorem lined_cons {part : Text} {parts : List Text} (depth : Nat) (h : parts ≠ []) :
    lined depth (part :: parts) = part ++ .char ',' :: (newLine depth ++ lined depth parts) := by
  cases parts with
  | nil => exact absurd rfl h
  | cons part' parts => exact lined_cons_cons depth part part' parts

theorem lined_eq_cons {g : Glyph} {t : Text} (depth : Nat) (parts : List Text) :
    ∃ t', lined depth ((g :: t) :: parts) = g :: t' := by
  cases parts with
  | nil => exact ⟨t, lined_singleton _ _⟩
  | cons part parts => exact ⟨_, by rw [lined_cons_cons]; rfl⟩

/-- The lines of items begin as their first item does. -/
theorem lined_writeItems_eq_cons (repertoire : Repertoire) {v : Json} (h : Readable v) (vs : List Json)
    (depth : Nat) : ∃ g t, lined depth (writeItems repertoire depth (v :: vs)) = g :: t
      ∧ opensValue g = true := by
  obtain ⟨g, t, ht, hg⟩ := writeAt_eq_cons repertoire h depth
  obtain ⟨t', ht'⟩ := lined_eq_cons (g := g) (t := t) depth (writeItems repertoire depth vs)
  exact ⟨g, t', by rw [writeItems, ht, ht'], hg⟩

/-- The lines of members begin with the quote of their first key. -/
theorem lined_writeMembers_eq_cons (repertoire : Repertoire) (m : Text × Json) (ms : Members)
    (depth : Nat) : ∃ t, lined depth (writeMembers repertoire depth (m :: ms)) = .char '"' :: t :=
  lined_eq_cons depth (writeMembers repertoire depth ms)

/-- The blanks of a new line are skipped up to the first item. -/
theorem skipSpace_lined_writeItems (repertoire : Repertoire) {v : Json} (h : Readable v) (vs : List Json)
    (depth : Nat) (tail : Text) :
    skipSpace (newLine depth ++ (lined depth (writeItems repertoire depth (v :: vs)) ++ tail))
      = lined depth (writeItems repertoire depth (v :: vs)) ++ tail := by
  obtain ⟨g, t, ht, hg⟩ := lined_writeItems_eq_cons repertoire h vs depth
  rw [skipSpace_newLine, ht, List.cons_append, skipSpace_cons (isSpace_of_opensValue hg)]

/-- The blanks of a new line are skipped up to the first member. -/
theorem skipSpace_lined_writeMembers (repertoire : Repertoire) (m : Text × Json) (ms : Members)
    (depth : Nat) (tail : Text) :
    skipSpace (newLine depth ++ (lined depth (writeMembers repertoire depth (m :: ms)) ++ tail))
      = lined depth (writeMembers repertoire depth (m :: ms)) ++ tail := by
  obtain ⟨t, ht⟩ := lined_writeMembers_eq_cons repertoire m ms depth
  rw [skipSpace_newLine, ht, List.cons_append, skipSpace_cons (by decide)]

/-- A container that holds something is its lines between two brackets. -/
theorem block_cons (depth : Nat) (first last : Char) (part : Text) (parts : List Text) :
    block depth first last (part :: parts) = .char first :: (newLine (depth + 1)
      ++ (lined (depth + 1) (part :: parts) ++ (newLine depth ++ [.char last]))) := by
  simp [block, lined, List.append_assoc]

theorem block_of_ne_nil {parts : List Text} (depth : Nat) (first last : Char) (h : parts ≠ []) :
    block depth first last parts = .char first :: (newLine (depth + 1)
      ++ (lined (depth + 1) parts ++ (newLine depth ++ [.char last]))) := by
  cases parts with
  | nil => exact absurd rfl h
  | cons part parts => exact block_cons depth first last part parts

/-! ## Parts of containers -/

section Parts

variable {fuel : Nat} {t behind rest : Text}

/-- The last item of an array, with the closing bracket behind it. -/
theorem readItems_last {v : Json} (hv : readValue fuel t = .ok (v, behind))
    (hb : skipSpace behind = .char ']' :: rest) : readItems (fuel + 1) t = .ok ([v], rest) := by
  rw [readItems, hv]
  simp only [hb]

/-- An item with a comma behind it, and then the others. -/
theorem readItems_next {v : Json} (hv : readValue fuel t = .ok (v, behind))
    (hb : skipSpace behind = .char ',' :: rest) : readItems (fuel + 1) t
      = (readItems fuel (skipSpace rest)).map fun r => (v :: r.1, r.2) := by
  rw [readItems, hv]
  simp only [hb]

variable {k value : Text} {v : Json}

/-- The last member of an object, with the closing brace behind it. -/
theorem readMembers_last (hk : readString t = .ok (k, .char ':' :: value))
    (hv : readValue fuel (skipSpace value) = .ok (v, behind)) (hb : skipSpace behind = .char '}' :: rest) :
    readMembers (fuel + 1) (.char '"' :: t) = .ok ([(k, v)], rest) := by
  have hcolon := skipSpace_cons (show isSpace (.char ':') = false by decide) value
  rw [readMembers, hk]
  simp only [hcolon, hv, hb]

/-- A member with a comma behind it, and then the others. -/
theorem readMembers_next (hk : readString t = .ok (k, .char ':' :: value))
    (hv : readValue fuel (skipSpace value) = .ok (v, behind)) (hb : skipSpace behind = .char ',' :: rest) :
    readMembers (fuel + 1) (.char '"' :: t)
      = (readMembers fuel (skipSpace rest)).map fun r => ((k, v) :: r.1, r.2) := by
  have hcolon := skipSpace_cons (show isSpace (.char ':') = false by decide) value
  rw [readMembers, hk]
  simp only [hcolon, hv, hb]

end Parts

/-- The items of a written array are read back, and its closing bracket is taken. -/
theorem readItems_lined {vs : List Json} (hne : vs ≠ [])
    (h : ∀ v ∈ vs, Readable v ∧ ReadsBack repertoire v) (depth depth' : Nat) (rest : Text)
    (fuel : Nat) (hf : 2 * (lined depth (writeItems repertoire depth vs)).length + 1 ≤ fuel) :
    readItems fuel (lined depth (writeItems repertoire depth vs)
      ++ (newLine depth' ++ .char ']' :: rest)) = .ok (vs, rest) := by
  induction vs generalizing fuel with
  | nil => exact absurd rfl hne
  | cons v vs ih =>
      obtain ⟨fuel, rfl⟩ : ∃ k, fuel = k + 1 := ⟨fuel - 1, by omega⟩
      have hv := (h v List.mem_cons_self).2
      cases vs with
      | nil =>
          rw [writeItems, writeItems, lined_singleton] at hf ⊢
          refine readItems_last (hv depth _ fuel (endsNumber_newLine _ _) (by omega)) ?_
          rw [skipSpace_newLine, skipSpace_cons (by decide)]
      | cons w ws =>
          rw [writeItems, lined_cons depth (by simp [writeItems])] at hf ⊢
          simp only [List.length_append, List.length_cons] at hf
          rw [List.append_assoc, List.cons_append, List.append_assoc]
          have hw : Readable w := (h w (List.mem_cons_of_mem _ List.mem_cons_self)).1
          rw [readItems_next (hv depth _ fuel (endsNumber_comma _) (by omega)) (skipSpace_cons (by decide) _),
            skipSpace_lined_writeItems repertoire hw,
            ih (by simp) (fun x hx => h x (List.mem_cons_of_mem _ hx)) fuel (by omega)]
          rfl

/-- The value of a member is read back behind the blank, with what follows it. -/
theorem ReadsBack.behind_blank {v : Json} (hv : ReadsBack repertoire v) (h : Readable v) {depth fuel : Nat}
    {tail : Text} (hends : EndsNumber tail) (hf : 2 * (writeAt repertoire depth v).length ≤ fuel) :
    readValue fuel (skipSpace (.char ' ' :: (writeAt repertoire depth v ++ tail))) = .ok (v, tail) := by
  have hskip : skipSpace (.char ' ' :: (writeAt repertoire depth v ++ tail))
      = writeAt repertoire depth v ++ tail := by
    obtain ⟨g, t, ht, hg⟩ := writeAt_eq_cons repertoire h depth
    rw [ht, List.cons_append]
    exact skipSpace_cons (isSpace_of_opensValue hg) _
  rw [hskip]
  exact hv depth tail fuel hends hf

/-- The members of a written object are read back, and its closing brace is taken. -/
theorem readMembers_lined {ms : Members} (hne : ms ≠ []) (hkeys : ∀ m ∈ ms, Unpaired m.1)
    (h : ∀ m ∈ ms, Readable m.2 ∧ ReadsBack repertoire m.2) (depth depth' : Nat) (rest : Text)
    (fuel : Nat) (hf : 2 * (lined depth (writeMembers repertoire depth ms)).length + 1 ≤ fuel) :
    readMembers fuel (lined depth (writeMembers repertoire depth ms)
      ++ (newLine depth' ++ .char '}' :: rest)) = .ok (ms, rest) := by
  induction ms generalizing fuel with
  | nil => exact absurd rfl hne
  | cons m ms ih =>
      obtain ⟨k, v⟩ := m
      obtain ⟨fuel, rfl⟩ : ∃ n, fuel = n + 1 := ⟨fuel - 1, by omega⟩
      have hk : Unpaired k := hkeys (k, v) List.mem_cons_self
      have hr : Readable v := (h (k, v) List.mem_cons_self).1
      have hv : ReadsBack repertoire v := (h (k, v) List.mem_cons_self).2
      cases ms with
      | nil =>
          simp only [writeMembers, writeString, lined_singleton, List.length_append,
            List.length_cons] at hf ⊢
          simp only [List.append_assoc, List.cons_append, List.nil_append]
          refine readMembers_last (readString_writeString repertoire hk _)
            (hv.behind_blank hr (endsNumber_newLine _ _) (by omega)) ?_
          rw [skipSpace_newLine, skipSpace_cons (by decide)]
      | cons m' ms =>
          rw [writeMembers, lined_cons depth (by simp [writeMembers])] at hf ⊢
          simp only [writeString, List.length_append, List.length_cons] at hf
          simp only [writeString, List.append_assoc, List.cons_append, List.nil_append]
          rw [readMembers_next (readString_writeString repertoire hk _)
              (hv.behind_blank hr (endsNumber_comma _) (by omega)) (skipSpace_cons (by decide) _),
            skipSpace_lined_writeMembers,
            ih (by simp) (fun x hx => hkeys x (List.mem_cons_of_mem _ hx))
              (fun x hx => h x (List.mem_cons_of_mem _ hx)) fuel (by omega)]
          rfl

theorem readValue_arr {g : Glyph} {rest t : Text} (ht : skipSpace rest = g :: t)
    (hg : g ≠ .char ']') (fuel : Nat) :
    readValue (fuel + 1) (.char '[' :: rest)
      = (readItems fuel (g :: t)).map fun r => (.arr r.1, r.2) := by
  rw [readValue, ht]
  split
  · next heq => exact absurd (List.cons.inj heq).1 hg
  · rfl

theorem readValue_obj {g : Glyph} {rest t : Text} (ht : skipSpace rest = g :: t)
    (hg : g ≠ .char '}') (fuel : Nat) :
    readValue (fuel + 1) (.char '{' :: rest)
      = (readMembers fuel (g :: t)).map fun r => (.obj (Members.ofList r.1), r.2) := by
  rw [readValue, ht]
  split
  · next heq => exact absurd (List.cons.inj heq).1 hg
  · rfl

theorem readValue_str (fuel : Nat) (t : Text) :
    readValue (fuel + 1) (.char '"' :: t) = (readString t).map fun r => (.str r.1, r.2) := by
  rw [readValue]

/-- A value that begins as a number does is no string, array or object. -/
theorem readValue_number {g : Glyph} (hg : g = .char '-' ∨ isDigit g = true) (fuel : Nat) (t : Text) :
    readValue (fuel + 1) (g :: t) = readAtom (g :: t) := by
  have hne : ∀ c : Char, c ≠ '-' → c.isDigit = false → ∀ r, g :: t = .char c :: r → False := by
    intro c hminus hdigit r heq
    obtain rfl := (List.cons.inj heq).1
    rcases hg with hg | hg
    · exact hminus (Glyph.char.inj hg)
    · rw [isDigit, hdigit] at hg
      cases hg
  rw [readValue]
  · exact hne '"' (by decide) (by decide)
  · exact hne '[' (by decide) (by decide)
  · exact hne '{' (by decide) (by decide)

/-! ## The round trip -/

/-- Fuel for a written value is more than one. -/
theorem exists_fuel {v : Json} (h : Readable v) {depth fuel : Nat}
    (hf : 2 * (writeAt repertoire depth v).length ≤ fuel) : ∃ k, fuel = k + 1 := by
  obtain ⟨g, t, ht, -⟩ := writeAt_eq_cons repertoire h depth
  rw [ht, List.length_cons] at hf
  exact ⟨fuel - 1, by omega⟩

theorem readsBack_int {n : Int} (h : (Nat.toDigits 10 n.natAbs).length ≤ digitLimit) :
    ReadsBack repertoire (.int n) := by
  intro depth rest fuel hends hf
  obtain ⟨fuel, rfl⟩ := exists_fuel (.int h) hf
  have hatom := readAtom_ofInt hends h
  obtain ⟨g, t, ht, hg⟩ := ofInt_eq_cons n
  rw [ht, List.cons_append] at hatom
  rw [writeAt, ht, List.cons_append, readValue_number hg, hatom]

theorem readsBack_str {t : Text} (h : Unpaired t) : ReadsBack repertoire (.str t) := by
  intro depth rest fuel _ hf
  obtain ⟨fuel, rfl⟩ := exists_fuel (.str h) hf
  simp only [writeAt, writeString, List.append_assoc, List.cons_append, List.nil_append]
  rw [readValue_str, readString_writeString repertoire h]
  rfl

/-- An array is read back where its items are. -/
theorem readsBack_arr {items : List Json} (h : ∀ v ∈ items, Readable v)
    (hback : ∀ v ∈ items, ReadsBack repertoire v) : ReadsBack repertoire (.arr items) := by
  intro depth rest fuel _ hf
  obtain ⟨fuel, rfl⟩ := exists_fuel (.arr h) hf
  cases items with
  | nil => rfl
  | cons v vs =>
      obtain ⟨g, t, ht, hg⟩ := lined_writeItems_eq_cons repertoire (h v List.mem_cons_self) vs (depth + 1)
      have hitems := readItems_lined (List.cons_ne_nil v vs) (fun x hx => ⟨h x hx, hback x hx⟩)
        (depth + 1) depth rest fuel
      rw [writeAt, block_of_ne_nil depth '[' ']' (by simp [writeItems])] at hf ⊢
      simp only [ht, List.length_append, List.length_cons, List.append_assoc, List.cons_append,
        List.nil_append] at hf hitems ⊢
      have hskip : ∀ tail, skipSpace (newLine (depth + 1) ++ g :: tail) = g :: tail := by
        intro tail
        rw [skipSpace_newLine, skipSpace_cons (isSpace_of_opensValue hg)]
      have hclose : g ≠ .char ']' := by rintro rfl; cases hg
      rw [readValue_arr (hskip _) hclose, hitems (by omega)]
      rfl

/-- An object is read back where the values of its members are. -/
theorem readsBack_obj {ms : Members} (keys : ms.keys.Nodup) (plain : ∀ m ∈ ms, Unpaired m.1)
    (h : ∀ m ∈ ms, Readable m.2) (hback : ∀ m ∈ ms, ReadsBack repertoire m.2) :
    ReadsBack repertoire (.obj ms) := by
  intro depth rest fuel _ hf
  obtain ⟨fuel, rfl⟩ := exists_fuel (.obj keys plain h) hf
  cases ms with
  | nil => rfl
  | cons m ms =>
      obtain ⟨t, ht⟩ := lined_writeMembers_eq_cons repertoire m ms (depth + 1)
      have hmembers := readMembers_lined (List.cons_ne_nil m ms) plain
        (fun x hx => ⟨h x hx, hback x hx⟩) (depth + 1) depth rest fuel
      rw [writeAt, block_of_ne_nil depth '{' '}' (by simp [writeMembers])] at hf ⊢
      simp only [ht, List.length_append, List.length_cons, List.append_assoc, List.cons_append,
        List.nil_append] at hf hmembers ⊢
      have hskip : ∀ tail, skipSpace (newLine (depth + 1) ++ .char '"' :: tail)
          = .char '"' :: tail := by
        intro tail
        rw [skipSpace_newLine, skipSpace_cons (by decide)]
      rw [readValue_obj (hskip _) (by decide), hmembers (by omega), Except.map,
        Members.ofList_of_nodup keys]

/-- Every readable value is read back. -/
theorem Readable.readsBack (repertoire : Repertoire) {v : Json} (h : Readable v) : ReadsBack repertoire v := by
  induction h with
  | null =>
      intro depth rest fuel _ hf
      obtain ⟨fuel, rfl⟩ := exists_fuel .null hf
      rfl
  | bool b =>
      intro depth rest fuel _ hf
      obtain ⟨fuel, rfl⟩ := exists_fuel (.bool b) hf
      cases b <;> rfl
  | int h => exact readsBack_int h
  | str h => exact readsBack_str h
  | arr h ih => exact readsBack_arr h ih
  | obj keys plain h ih => exact readsBack_obj keys plain h ih

/-- **Round trip.** A readable value is read back from its written text, with blanks behind it. -/
theorem read_write (repertoire : Repertoire) {v : Json} (h : Readable v) {blanks : Text}
    (hblanks : ∀ g ∈ blanks, isSpace g = true) :
    Json.read (write repertoire v ++ blanks) = .ok v := by
  obtain ⟨g, t, ht, hg⟩ := writeAt_eq_cons repertoire h 0
  have hends : EndsNumber blanks := by
    intro x hx
    have hx := hblanks x (List.mem_of_mem_head? hx)
    simp only [isSpace, Bool.or_eq_true, decide_eq_true_eq] at hx
    rcases hx with ((rfl | rfl) | rfl) | rfl <;> decide
  have hskip : skipSpace blanks = [] := List.dropWhile_eq_nil_iff.2 hblanks
  have hread := h.readsBack repertoire 0 blanks
    (fuelFor (write repertoire v ++ blanks)) hends
    (by rw [fuelFor, List.length_append, write]; omega)
  have hmark : g ≠ .char '\uFEFF' := by rintro rfl; cases hg
  have htext : readText (write repertoire v ++ blanks) = .ok v := by
    rw [write, ht, List.cons_append] at hread ⊢
    rw [readText.eq_def]
    split
    · next heq => exact absurd (List.cons.inj heq).1 hmark
    · rw [skipSpace_cons (isSpace_of_opensValue hg), hread]
      simp only [hskip]
  rw [Json.read, htext]
  rfl

end Json

end RecordStore
