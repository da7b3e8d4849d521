import RecordStore.Utf8

/-!
# RecordStore.Proofs.Utf8

UTF-8 reads back what it wrote: `decode_encodeChars`.  One lemma for each length of a sequence, and
an induction over the characters.
-/

namespace RecordStore.Utf8

/-! ## Bytes of small numbers -/

theorem toNat_ofNat_of_lt {n : Nat} (h : n < 256) : (UInt8.ofNat n).toNat = n := by
  rw [UInt8.toNat_ofNat']; omega

theorem ofNat_lt_iff {n : Nat} {b : UInt8} (h : n < 256) : UInt8.ofNat n < b ↔ n < b.toNat := by
  rw [UInt8.lt_iff_toNat_lt, toNat_ofNat_of_lt h]

theorem ofNat_le_iff {n : Nat} {b : UInt8} (h : n < 256) : UInt8.ofNat n ≤ b ↔ n ≤ b.toNat := by
  rw [UInt8.le_iff_toNat_le, toNat_ofNat_of_lt h]

theorem le_ofNat_iff {n : Nat} {b : UInt8} (h : n < 256) : b ≤ UInt8.ofNat n ↔ b.toNat ≤ n := by
  rw [UInt8.le_iff_toNat_le, toNat_ofNat_of_lt h]

theorem ofNat_eq_iff {n : Nat} {b : UInt8} (h : n < 256) : UInt8.ofNat n = b ↔ n = b.toNat := by
  rw [← UInt8.toNat_inj, toNat_ofNat_of_lt h]

theorem isContinuation_ofNat {n : Nat} (h : n < 0x40) :
    isContinuation (UInt8.ofNat (0x80 + n)) = true := by
  rw [isContinuation, Bool.and_eq_true, decide_eq_true_eq, decide_eq_true_eq,
    le_ofNat_iff (by omega), ofNat_le_iff (by omega)]
  simp only [UInt8.reduceToNat]
  omega

theorem low_ofNat {n : Nat} (h : n < 0x40) : low (UInt8.ofNat (0x80 + n)) = n := by
  have hlow : 0x80 + n < 256 := by omega
  have hb : (UInt8.ofNat (0x80 + n)).toNat = 0x80 + n := toNat_ofNat_of_lt hlow
  unfold low
  rw [hb, Nat.add_sub_cancel_left]

/-- The bounds of the second byte rule out what has a shorter sequence, and the surrogates. -/
theorem secondOfThree_ofNat {m n : Nat} (hm : m < 0x10) (hn : n < 0x40)
    (hlong : 0x20 ≤ m * 0x40 + n) (hplain : m * 0x40 + n < 0x360 ∨ 0x37F < m * 0x40 + n) :
    secondOfThree (UInt8.ofNat (0xE0 + m)) (UInt8.ofNat (0x80 + n)) = true := by
  rw [secondOfThree, Bool.and_eq_true, decide_eq_true_eq, decide_eq_true_eq,
    le_ofNat_iff (by omega), ofNat_le_iff (by omega)]
  have heq : ∀ b : UInt8, UInt8.ofNat (0xE0 + m) = b ↔ 0xE0 + m = b.toNat :=
    fun b => ofNat_eq_iff (by omega)
  simp only [heq, UInt8.reduceToNat]
  constructor
  · split <;> simp only [UInt8.reduceToNat] <;> omega
  · split <;> simp only [UInt8.reduceToNat] <;> omega

/-- The bounds of the second byte rule out what has a shorter sequence, and what is past the last
code point. -/
theorem secondOfFour_ofNat {m n : Nat} (hn : n < 0x40) (hlong : 0x10 ≤ m * 0x40 + n)
    (hlast : m * 0x40 + n < 0x110) :
    secondOfFour (UInt8.ofNat (0xF0 + m)) (UInt8.ofNat (0x80 + n)) = true := by
  rw [secondOfFour, Bool.and_eq_true, decide_eq_true_eq, decide_eq_true_eq,
    le_ofNat_iff (by omega), ofNat_le_iff (by omega)]
  have heq : ∀ b : UInt8, UInt8.ofNat (0xF0 + m) = b ↔ 0xF0 + m = b.toNat :=
    fun b => ofNat_eq_iff (by omega)
  simp only [heq, UInt8.reduceToNat]
  constructor
  · split <;> simp only [UInt8.reduceToNat] <;> omega
  · split <;> simp only [UInt8.reduceToNat] <;> omega

/-! ## Single sequences -/

/-- A character is no surrogate, and below the end of the code points. -/
theorem toNat_range (c : Char) : c.toNat < 0xD800 ∨ (0xDFFF < c.toNat ∧ c.toNat < 0x110000) := by
  have := c.valid
  rw [UInt32.isValidChar, Nat.isValidChar] at this
  exact this

section Sequences

variable (pos : Nat) (c : Char) (rest : Bytes)

theorem decodeFrom_one (h : c.toNat < 0x80) :
    decodeFrom pos (UInt8.ofNat c.toNat :: rest) = (decodeFrom (pos + 1) rest).map (c :: ·) := by
  have h1 : UInt8.ofNat c.toNat < 0x80 := (ofNat_lt_iff (by omega)).2 h
  rw [decodeFrom.eq_def]
  simp only [if_pos h1]
  rw [toNat_ofNat_of_lt (by omega), Char.ofNat_toNat]

theorem decodeFrom_two (h : 0x80 ≤ c.toNat) (h' : c.toNat < 0x800) :
    decodeFrom pos (UInt8.ofNat (0xC0 + c.toNat / 64) :: UInt8.ofNat (0x80 + c.toNat % 64) :: rest)
      = (decodeFrom (pos + 2) rest).map (c :: ·) := by
  have hlt : ∀ b : UInt8, UInt8.ofNat (0xC0 + c.toNat / 64) < b ↔ 0xC0 + c.toNat / 64 < b.toNat :=
    fun b => ofNat_lt_iff (by omega)
  have h1 : ¬ UInt8.ofNat (0xC0 + c.toNat / 64) < 0x80 := by
    rw [hlt]; simp only [UInt8.reduceToNat]; omega
  have h2 : ¬ UInt8.ofNat (0xC0 + c.toNat / 64) < 0xC2 := by
    rw [hlt]; simp only [UInt8.reduceToNat]; omega
  have h3 : UInt8.ofNat (0xC0 + c.toNat / 64) < 0xE0 := by
    rw [hlt]; simp only [UInt8.reduceToNat]; omega
  have hb : isContinuation (UInt8.ofNat (0x80 + c.toNat % 64)) = true :=
    isContinuation_ofNat (by omega)
  have hc : (0xC0 + c.toNat / 64 - 0xC0) * 64 + c.toNat % 64 = c.toNat := by omega
  rw [decodeFrom.eq_def]
  simp only [if_neg h1, if_neg h2, if_pos h3, if_pos hb]
  rw [toNat_ofNat_of_lt (by omega), low_ofNat (by omega), hc, Char.ofNat_toNat]

theorem decodeFrom_three (h : 0x800 ≤ c.toNat) (h' : c.toNat < 0x10000) :
    decodeFrom pos (UInt8.ofNat (0xE0 + c.toNat / 4096) :: UInt8.ofNat (0x80 + c.toNat / 64 % 64)
      :: UInt8.ofNat (0x80 + c.toNat % 64) :: rest) = (decodeFrom (pos + 3) rest).map (c :: ·) := by
  have hr := toNat_range c
  have hlt : ∀ b : UInt8,
      UInt8.ofNat (0xE0 + c.toNat / 4096) < b ↔ 0xE0 + c.toNat / 4096 < b.toNat :=
    fun b => ofNat_lt_iff (by omega)
  have h1 : ¬ UInt8.ofNat (0xE0 + c.toNat / 4096) < 0x80 := by
    rw [hlt]; simp only [UInt8.reduceToNat]; omega
  have h2 : ¬ UInt8.ofNat (0xE0 + c.toNat / 4096) < 0xC2 := by
    rw [hlt]; simp only [UInt8.reduceToNat]; omega
  have h3 : ¬ UInt8.ofNat (0xE0 + c.toNat / 4096) < 0xE0 := by
    rw [hlt]; simp only [UInt8.reduceToNat]; omega
  have h4 : UInt8.ofNat (0xE0 + c.toNat / 4096) < 0xF0 := by
    rw [hlt]; simp only [UInt8.reduceToNat]; omega
  have hs : secondOfThree (UInt8.ofNat (0xE0 + c.toNat / 4096))
      (UInt8.ofNat (0x80 + c.toNat / 64 % 64)) = true :=
    secondOfThree_ofNat (by omega) (by omega) (by omega) (by omega)
  have hb : isContinuation (UInt8.ofNat (0x80 + c.toNat % 64)) = true :=
    isContinuation_ofNat (by omega)
  have hc : ((0xE0 + c.toNat / 4096 - 0xE0) * 64 + c.toNat / 64 % 64) * 64 + c.toNat % 64
      = c.toNat := by omega
  rw [decodeFrom.eq_def]
  simp only [if_neg h1, if_neg h2, if_neg h3, if_pos h4, if_pos hs, if_pos hb]
  rw [toNat_ofNat_of_lt (by omega), low_ofNat (by omega), low_ofNat (by omega), hc,
    Char.ofNat_toNat]

theorem decodeFrom_four (h : 0x10000 ≤ c.toNat) :
    decodeFrom pos (UInt8.ofNat (0xF0 + c.toNat / 262144) :: UInt8.ofNat (0x80 + c.toNat / 4096 % 64)
      :: UInt8.ofNat (0x80 + c.toNat / 64 % 64) :: UInt8.ofNat (0x80 + c.toNat % 64) :: rest)
      = (decodeFrom (pos + 4) rest).map (c :: ·) := by
  have hr := toNat_range c
  have hlt : ∀ b : UInt8,
      UInt8.ofNat (0xF0 + c.toNat / 262144) < b ↔ 0xF0 + c.toNat / 262144 < b.toNat :=
    fun b => ofNat_lt_iff (by omega)
  have h1 : ¬ UInt8.ofNat (0xF0 + c.toNat / 262144) < 0x80 := by
    rw [hlt]; simp only [UInt8.reduceToNat]; omega
  have h2 : ¬ UInt8.ofNat (0xF0 + c.toNat / 262144) < 0xC2 := by
    rw [hlt]; simp only [UInt8.reduceToNat]; omega
  have h3 : ¬ UInt8.ofNat (0xF0 + c.toNat / 262144) < 0xE0 := by
    rw [hlt]; simp only [UInt8.reduceToNat]; omega
  have h4 : ¬ UInt8.ofNat (0xF0 + c.toNat / 262144) < 0xF0 := by
    rw [hlt]; simp only [UInt8.reduceToNat]; omega
  have h5 : UInt8.ofNat (0xF0 + c.toNat / 262144) < 0xF5 := by
    rw [hlt]; simp only [UInt8.reduceToNat]; omega
  have hs : secondOfFour (UInt8.ofNat (0xF0 + c.toNat / 262144))
      (UInt8.ofNat (0x80 + c.toNat / 4096 % 64)) = true :=
    secondOfFour_ofNat (by omega) (by omega) (by omega)
  have hb : isContinuation (UInt8.ofNat (0x80 + c.toNat / 64 % 64)) = true :=
    isContinuation_ofNat (by omega)
  have hd : isContinuation (UInt8.ofNat (0x80 + c.toNat % 64)) = true :=
    isContinuation_ofNat (by omega)
  have hc : (((0xF0 + c.toNat / 262144 - 0xF0) * 64 + c.toNat / 4096 % 64) * 64
      + c.toNat / 64 % 64) * 64 + c.toNat % 64 = c.toNat := by omega
  rw [decodeFrom.eq_def]
  simp only [if_neg h1, if_neg h2, if_neg h3, if_neg h4, if_pos h5, if_pos hs, if_pos hb, if_pos hd]
  rw [toNat_ofNat_of_lt (by omega), low_ofNat (by omega), low_ofNat (by omega),
    low_ofNat (by omega), hc, Char.ofNat_toNat]

/-- A character is read from the front of its bytes. -/
theorem decodeFrom_encodeChar_append : ∃ width,
    decodeFrom pos (encodeChar c ++ rest) = (decodeFrom (pos + width) rest).map (c :: ·) := by
  rw [encodeChar]
  split
  · next h => exact ⟨1, decodeFrom_one pos c rest h⟩
  · split
    · exact ⟨2, decodeFrom_two pos c rest (by omega) (by omega)⟩
    · split
      · exact ⟨3, decodeFrom_three pos c rest (by omega) (by omega)⟩
      · exact ⟨4, decodeFrom_four pos c rest (by omega)⟩

end Sequences

/-! ## Texts -/

theorem decodeFrom_encodeChars (pos : Nat) (cs : List Char) :
    decodeFrom pos (encodeChars cs) = .ok cs := by
  induction cs generalizing pos with
  | nil => rfl
  | cons c cs ih =>
      obtain ⟨width, h⟩ := decodeFrom_encodeChar_append pos c (encodeChars cs)
      have happ : encodeChars (c :: cs) = encodeChar c ++ encodeChars cs := rfl
      rw [happ, h, ih]; rfl

/-- The bytes of characters decode to them. -/
theorem decode_encodeChars (cs : List Char) : decode (encodeChars cs) = .ok cs :=
  decodeFrom_encodeChars 0 cs

theorem plain_of_encodeFrom {pos : Nat} {t : Text} {bytes : Bytes}
    (h : encodeFrom pos t = .ok bytes) : t.Plain := by
  induction t generalizing pos bytes with
  | nil => exact ⟨[], rfl⟩
  | cons g t ih =>
      cases g with
      | surrogate i => cases h
      | char c =>
          rw [encodeFrom] at h
          cases ht : encodeFrom (pos + 1) t with
          | error e => rw [ht] at h; cases h
          | ok bs =>
              obtain ⟨cs, rfl⟩ := ih ht
              exact ⟨c :: cs, rfl⟩

/-- Only a text without lone surrogates can be encoded, to the bytes of its characters. -/
theorem encode_eq_ok_iff {t : Text} {bytes : Bytes} :
    encode t = .ok bytes ↔ ∃ cs, t = Text.ofChars cs ∧ bytes = encodeChars cs := by
  constructor
  · intro h
    obtain ⟨cs, rfl⟩ := plain_of_encodeFrom h
    rw [encode_ofChars] at h
    exact ⟨cs, rfl, (Except.ok.inj h).symm⟩
  · rintro ⟨cs, rfl, rfl⟩
    exact encode_ofChars cs

end RecordStore.Utf8
