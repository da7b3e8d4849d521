import Mathlib.Data.List.Chain
import RecordStore.Json.Reader
import RecordStore.Json.Writer

/-!
# RecordStore.Proofs.Json.Strings

JSON strings are read back as they were written (`readString_writeString`).  The only texts that
are not are those in which the two halves of a surrogate pair stand side by side, each on its own:
escaped, they are read as the one code point that they are together.  A text is `Unpaired` when it
has no such place.
-/

namespace RecordStore

/-! ## Code points -/

theorem Glyph.code_lt (g : Glyph) : g.code < 0x110000 := by
  cases g with
  | surrogate i => have := i.isLt; simp only [Glyph.code]; omega
  | char c =>
      have hv := c.valid
      rw [UInt32.isValidChar, Nat.isValidChar] at hv
      have hc : (Glyph.char c).code = c.val.toNat := rfl
      omega

theorem Glyph.ofCode_surrogate {k : Nat} (h : k < 2048) :
    Glyph.ofCode (0xD800 + k) = .surrogate ⟨k, h⟩ := by
  have hr : 0xD800 ≤ 0xD800 + k ∧ 0xD800 + k < 0xE000 := ⟨Nat.le_add_right _ _, by omega⟩
  have hk : 0xD800 + k - 0xD800 = k := Nat.add_sub_cancel_left _ _
  unfold Glyph.ofCode
  rw [dif_pos hr]
  simp only [hk]

/-- A code point is found by its number. -/
theorem Glyph.ofCode_code (g : Glyph) : Glyph.ofCode g.code = g := by
  cases g with
  | surrogate i => exact Glyph.ofCode_surrogate i.isLt
  | char c =>
      have hv : c.toNat.isValidChar := c.valid
      have hr : ¬ (0xD800 ≤ c.toNat ∧ c.toNat < 0xE000) := by
        rw [Nat.isValidChar] at hv
        omega
      rw [Glyph.ofCode, Glyph.code, dif_neg hr, dif_pos hv]
      congr 1

theorem Glyph.code_inj {g h : Glyph} (heq : g.code = h.code) : g = h := by
  rw [← ofCode_code g, heq, ofCode_code]

namespace Json

/-- No two code points of a text that stand side by side are the halves of a surrogate pair. -/
def Unpaired (t : Text) : Prop := t.IsChain fun g h => pair? g h = none

instance (t : Text) : Decidable (Unpaired t) := inferInstanceAs (Decidable (List.IsChain _ t))

/-- What is made of characters has no halves of pairs. -/
theorem unpaired_ofChars (cs : List Char) : Unpaired (Text.ofChars cs) := by
  induction cs with
  | nil => exact .nil
  | cons c cs ih =>
      cases cs with
      | nil => exact .singleton _
      | cons c' cs => exact .cons_cons rfl ih

/-- A text without lone surrogates has no halves of pairs. -/
theorem unpaired_of_plain {t : Text} (h : t.Plain) : Unpaired t := by
  obtain ⟨cs, rfl⟩ := h
  exact unpaired_ofChars cs

theorem pair?_surrogate (i j : Fin 2048) : pair? (.surrogate i) (.surrogate j)
    = if i.val < 1024 ∧ 1024 ≤ j.val then
        some (.ofCode (0x10000 + i.val * 1024 + (j.val - 1024)))
      else none := rfl

/-! ## Escapes by number -/

theorem hexValue?_digitChar : ∀ k < 16, hexValue? (.char (Nat.digitChar k)) = some k := by decide

theorem hexValue?_hexChar (n : Nat) : hexValue? (hexChar n) = some (n % 16) :=
  hexValue?_digitChar _ (Nat.mod_lt _ (by decide))

/-- Four hexadecimal digits give a number of 16 bits. -/
theorem hexFour?_hexChar {n : Nat} (h : n < 0x10000) :
    hexFour? (hexChar (n / 4096)) (hexChar (n / 256)) (hexChar (n / 16)) (hexChar n) = some n := by
  simp only [hexFour?, hexValue?_hexChar, Option.pure_def, Option.bind_eq_bind, Option.bind_some]
  congr 1
  omega

section Inside

variable {start rest behind t : Text}

/-- Nothing is read from an empty text, so there is more to come where something is read. -/
theorem readInside_ne_nil (h : readInside start rest = .ok (t, behind)) : rest ≠ [] := by
  rintro rfl
  simp [readInside] at h

/-- An escape by number is read as the code point of that number. -/
theorem readInside_unicodeEscape {n : Nat} (hn : n < 0x10000) (hrest : rest ≠ []) :
    readInside start (unicodeEscape n ++ rest)
      = consUnit (.ofCode n) rest (readInside start rest) := by
  obtain ⟨e, rest, rfl⟩ := List.exists_cons_of_ne_nil hrest
  simp only [unicodeEscape, List.cons_append, List.nil_append]
  rw [readInside, hexFour?_hexChar hn]

/-- An escaped code point that is no half of a pair with what follows is read as it is. -/
theorem consUnit_of_not_pair {g : Glyph} (h : ∀ x ∈ t.head?, pair? g x = none) :
    consUnit g rest (.ok (t, behind)) = .ok (g :: t, behind) := by
  cases t with
  | nil => rfl
  | cons x t => simp only [consUnit, h x rfl]

/-- Where one glyph stands for itself. -/
theorem readInside_plain {g : Glyph} (hq : g ≠ .char '"') (hb : g ≠ .char '\\')
    (hc : ¬ g.code < 0x20) :
    readInside start (g :: rest) = consGlyph g (readInside start rest) := by
  rw [readInside.eq_def]
  split <;> simp_all

/-- The two halves of a code point beyond 16 bits are read as one. -/
theorem readInside_halves {high low : Nat} (hhigh : high < 1024) (hlow : low < 1024)
    (h : readInside start rest = .ok (t, behind)) :
    readInside start (unicodeEscape (0xD800 + high) ++ (unicodeEscape (0xDC00 + low) ++ rest))
      = .ok (.ofCode (0x10000 + high * 1024 + low) :: t, behind) := by
  have hhigh' : high < 2048 := by omega
  have hlow' : 1024 + low < 2048 := by omega
  have hfirst : Glyph.ofCode (0xD800 + high) = .surrogate ⟨high, hhigh'⟩ :=
    Glyph.ofCode_surrogate hhigh'
  have hsecond : Glyph.ofCode (0xDC00 + low) = .surrogate ⟨1024 + low, hlow'⟩ := by
    rw [← Glyph.ofCode_surrogate hlow', ← Nat.add_assoc]
  have hnone : ∀ x ∈ t.head?, pair? (.surrogate ⟨1024 + low, hlow'⟩) x = none := by
    intro x _
    cases x with
    | char c => rfl
    | surrogate j =>
        rw [pair?_surrogate, if_neg]
        intro hj
        exact Nat.not_lt.2 (Nat.le_add_right 1024 low) hj.1
  have hpair : pair? (.surrogate ⟨high, hhigh'⟩) (.surrogate ⟨1024 + low, hlow'⟩)
      = some (.ofCode (0x10000 + high * 1024 + low)) := by
    rw [pair?_surrogate, if_pos ⟨hhigh, Nat.le_add_right 1024 low⟩, Nat.add_sub_cancel_left]
  rw [readInside_unicodeEscape (by omega) (by simp [unicodeEscape]),
    readInside_unicodeEscape (by omega) (readInside_ne_nil h), h, hsecond,
    consUnit_of_not_pair hnone, hfirst]
  simp only [consUnit, hpair]
  rfl

/-! ## Written strings -/

/-- A written glyph is read in front of what is read behind it. -/
theorem readInside_writeGlyph (repertoire : Repertoire) {g : Glyph}
    (h : readInside start rest = .ok (t, behind)) (hg : ∀ x ∈ t.head?, pair? g x = none) :
    readInside start (writeGlyph repertoire g ++ rest) = .ok (g :: t, behind) := by
  have hescape : ∀ {l : Char} {c : Char}, escapeValue? (.char l) = some c → l ≠ 'u' →
      readInside start (.char '\\' :: .char l :: rest) = .ok (.char c :: t, behind) := by
    intro l c hl hu
    rw [readInside.eq_def]
    simp [hl, hu, h, consGlyph]
  have hnumber : ∀ n < 0x10000, readInside start (unicodeEscape n ++ rest)
      = consUnit (.ofCode n) rest (.ok (t, behind)) := by
    intro n hn
    rw [readInside_unicodeEscape hn (readInside_ne_nil h), h]
  rw [writeGlyph.eq_def]
  split
  · exact hescape rfl (by decide)
  · exact hescape rfl (by decide)
  · exact hescape rfl (by decide)
  · exact hescape rfl (by decide)
  · exact hescape rfl (by decide)
  · exact hescape rfl (by decide)
  · exact hescape rfl (by decide)
  · next hq hb _ _ _ _ _ =>
    dsimp only
    split
    · rw [hnumber _ (by omega), Glyph.ofCode_code, consUnit_of_not_pair hg]
    · split
      · next hctl _ =>
        rw [List.singleton_append, readInside_plain hq hb hctl, h]; rfl
      · split
        · next hlt => rw [hnumber _ hlt, Glyph.ofCode_code, consUnit_of_not_pair hg]
        · next hlt =>
          have hcode := g.code_lt
          have hn : 0x10000 + (g.code - 0x10000) / 1024 * 1024 + (g.code - 0x10000) % 1024
              = g.code := by omega
          rw [List.append_assoc, readInside_halves (by omega) (by omega) h, hn, Glyph.ofCode_code]

/-- The inside of a written string is read back, and its closing quote is taken. -/
theorem readInside_flatMap (repertoire : Repertoire) (h : Unpaired t) :
    readInside start (t.flatMap (writeGlyph repertoire) ++ .char '"' :: behind)
      = .ok (t, behind) := by
  induction t with
  | nil => rw [List.flatMap_nil, List.nil_append, readInside]
  | cons g t ih =>
      rw [List.flatMap_cons, List.append_assoc]
      rw [Unpaired, List.isChain_cons] at h
      exact readInside_writeGlyph repertoire (ih h.2) h.1

end Inside

/-- A written string is read back, and what follows it is left. -/
theorem readString_writeString (repertoire : Repertoire) {t : Text} (h : Unpaired t)
    (behind : Text) :
    readString (t.flatMap (writeGlyph repertoire) ++ .char '"' :: behind) = .ok (t, behind) :=
  readInside_flatMap repertoire h

end Json

end RecordStore
