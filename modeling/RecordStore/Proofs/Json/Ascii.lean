import RecordStore.Proofs.Json.RoundTrip

/-!
# RecordStore.Proofs.Json.Ascii

The ASCII text of a value holds ASCII characters only.  Carriage returns are escaped like every
control character, so the text is the same after its line breaks are unified.
-/

namespace RecordStore.Json

/-! ## Glyphs -/

/-- A glyph of an ASCII text that is no carriage return. -/
def isAscii : Glyph → Bool
  | .char c => c.toNat < 0x80 && c ≠ '\r'
  | .surrogate _ => false

theorem isAscii_digitChar : ∀ k < 16, isAscii (.char (Nat.digitChar k)) = true := by decide

theorem isAscii_of_mem_unicodeEscape {n : Nat} {g : Glyph} (h : g ∈ unicodeEscape n) :
    isAscii g = true := by
  have hhex : ∀ k, isAscii (hexChar k) = true :=
    fun k => isAscii_digitChar _ (Nat.mod_lt _ (by decide))
  simp only [unicodeEscape, List.mem_cons, List.not_mem_nil, or_false] at h
  rcases h with rfl | rfl | rfl | rfl | rfl | rfl
  · decide
  · decide
  all_goals exact hhex _

theorem isAscii_of_mem_writeGlyph {g x : Glyph} (h : x ∈ writeGlyph .ascii g) :
    isAscii x = true := by
  rw [writeGlyph.eq_def] at h
  split at h
  case h_8 =>
    dsimp only at h
    split at h
    · exact isAscii_of_mem_unicodeEscape h
    · split at h
      · next hr _ _ _ _ hlt =>
        obtain rfl := List.mem_singleton.1 h
        cases x with
        | surrogate i =>
            simp only [Glyph.code, reduceCtorEq, false_or] at hlt
            omega
        | char c =>
            have hlt : c.toNat < 0x7F := by simpa [Glyph.code] using hlt
            have hne : c ≠ '\r' := by
              rintro rfl
              exact hr rfl
            simp [isAscii, hne]
            omega
      · split at h
        · exact isAscii_of_mem_unicodeEscape h
        · exact (List.mem_append.1 h).elim isAscii_of_mem_unicodeEscape isAscii_of_mem_unicodeEscape
  all_goals
    revert x
    decide

/-! ## Values -/

theorem isAscii_of_mem_writeString {t : Text} {x : Glyph} (h : x ∈ writeString .ascii t) :
    isAscii x = true := by
  simp only [writeString, List.mem_append, List.mem_singleton, List.mem_flatMap] at h
  rcases h with (rfl | ⟨g, -, h⟩) | rfl
  · decide
  · exact isAscii_of_mem_writeGlyph h
  · decide

theorem isAscii_of_mem_newLine {depth : Nat} {x : Glyph} (h : x ∈ newLine depth) :
    isAscii x = true := by
  rcases List.mem_cons.1 h with rfl | h
  · decide
  · rw [List.eq_of_mem_replicate h]; decide

section Blocks

variable {P : Glyph → Prop} {depth : Nat} {parts : List Text} {x : Glyph}

/-- What holds of all ASCII glyphs and of the glyphs of all parts holds of the parts on lines of
their own. -/
theorem of_mem_lined (hascii : ∀ g, isAscii g = true → P g)
    (hparts : ∀ part ∈ parts, ∀ x ∈ part, P x) (h : x ∈ lined depth parts) : P x := by
  induction parts with
  | nil => cases h
  | cons part parts ih =>
      cases parts with
      | nil => exact hparts part List.mem_cons_self x (by simpa using h)
      | cons part' parts =>
          rw [lined_cons_cons, List.mem_append, List.mem_cons, List.mem_append] at h
          rcases h with h | rfl | h | h
          · exact hparts part List.mem_cons_self x h
          · exact hascii _ (by decide)
          · exact hascii _ (isAscii_of_mem_newLine h)
          · exact ih (fun q hq => hparts q (List.mem_cons_of_mem _ hq)) h

theorem of_mem_block (hascii : ∀ g, isAscii g = true → P g) {first last : Char}
    (hfirst : isAscii (.char first) = true) (hlast : isAscii (.char last) = true)
    (hparts : ∀ part ∈ parts, ∀ x ∈ part, P x) (h : x ∈ block depth first last parts) : P x := by
  cases parts with
  | nil =>
      simp only [block, List.mem_cons, List.not_mem_nil, or_false] at h
      rcases h with rfl | rfl
      · exact hascii _ hfirst
      · exact hascii _ hlast
  | cons part parts =>
      simp only [block_cons, List.mem_cons, List.mem_append, List.not_mem_nil, or_false] at h
      rcases h with rfl | h | h | h | rfl
      · exact hascii _ hfirst
      · exact hascii _ (isAscii_of_mem_newLine h)
      · exact of_mem_lined hascii hparts h
      · exact hascii _ (isAscii_of_mem_newLine h)
      · exact hascii _ hlast

end Blocks

theorem exists_of_mem_writeItems {repertoire : Repertoire} {depth : Nat} {items : List Json}
    {part : Text} (h : part ∈ writeItems repertoire depth items) :
    ∃ v ∈ items, part = writeAt repertoire depth v := by
  induction items with
  | nil => rw [writeItems] at h; cases h
  | cons v vs ih =>
      rw [writeItems, List.mem_cons] at h
      rcases h with rfl | h
      · exact ⟨v, List.mem_cons_self, rfl⟩
      · obtain ⟨w, hw, rfl⟩ := ih h
        exact ⟨w, List.mem_cons_of_mem _ hw, rfl⟩

theorem exists_of_mem_writeMembers {repertoire : Repertoire} {depth : Nat} {ms : Members}
    {part : Text} (h : part ∈ writeMembers repertoire depth ms) :
    ∃ m ∈ ms, part = writeString repertoire m.1 ++ [.char ':', .char ' ']
      ++ writeAt repertoire depth m.2 := by
  induction ms with
  | nil => rw [writeMembers] at h; cases h
  | cons m ms ih =>
      obtain ⟨k, v⟩ := m
      rw [writeMembers, List.mem_cons] at h
      rcases h with rfl | h
      · exact ⟨(k, v), List.mem_cons_self, rfl⟩
      · obtain ⟨w, hw, rfl⟩ := ih h
        exact ⟨w, List.mem_cons_of_mem _ hw, rfl⟩

theorem isAscii_of_mem_ofInt {n : Int} {x : Glyph} (hx : x ∈ Text.ofInt n) : isAscii x = true := by
  rw [Text.ofInt, List.mem_append] at hx
  rcases hx with hx | hx
  · split at hx
    · obtain rfl := List.mem_singleton.1 hx; decide
    · cases hx
  · obtain ⟨c, hc, rfl⟩ := List.mem_map.1 hx
    have hdigit := Nat.isDigit_of_mem_toDigits (by decide) (by decide) hc
    have hle : c.toNat ≤ '9'.toNat := (Char.isDigit_iff_toNat.1 hdigit).2
    have hne : c ≠ '\r' := by rintro rfl; cases hdigit
    have hlt : c.toNat < 0x80 := Nat.lt_of_le_of_lt hle (by decide)
    simp [isAscii, hne, hlt]

/-- Readable values have ASCII texts. -/
theorem Readable.isAscii_of_mem_writeAt {v : Json} (h : Readable v) {depth : Nat} {x : Glyph}
    (hx : x ∈ writeAt .ascii depth v) : isAscii x = true := by
  induction h generalizing depth x with
  | null =>
      rw [writeAt] at hx
      revert x
      decide
  | bool b =>
      rw [writeAt] at hx
      revert x
      cases b <;> decide
  | int => exact isAscii_of_mem_ofInt hx
  | str => exact isAscii_of_mem_writeString hx
  | arr _ ih =>
      rw [writeAt] at hx
      refine of_mem_block (fun _ h => h) (by decide) (by decide) ?_ hx
      intro part hpart y hy
      obtain ⟨v, hv, rfl⟩ := exists_of_mem_writeItems hpart
      exact ih v hv hy
  | obj _ _ _ ih =>
      rw [writeAt] at hx
      refine of_mem_block (fun _ h => h) (by decide) (by decide) ?_ hx
      intro part hpart y hy
      obtain ⟨m, hm, rfl⟩ := exists_of_mem_writeMembers hpart
      rw [List.mem_append, List.mem_append] at hy
      rcases hy with (hy | hy) | hy
      · exact isAscii_of_mem_writeString hy
      · revert y; decide
      · exact ih m hm hy

/-- A text of ASCII glyphs has no lone surrogates. -/
theorem plain_of_isAscii {t : Text} (h : ∀ x ∈ t, isAscii x = true) : t.Plain := by
  induction t with
  | nil => exact ⟨[], rfl⟩
  | cons g t ih =>
      obtain ⟨cs, rfl⟩ := ih fun x hx => h x (List.mem_cons_of_mem _ hx)
      cases g with
      | surrogate i => exact absurd (h _ List.mem_cons_self) Bool.false_ne_true
      | char c => exact ⟨c :: cs, rfl⟩

/-- The ASCII text of a readable value holds characters only. -/
theorem Readable.plain_write {v : Json} (h : Readable v) : (write .ascii v).Plain :=
  plain_of_isAscii fun _ => h.isAscii_of_mem_writeAt

/-- The ASCII text of a readable value holds no carriage return. -/
theorem Readable.cr_not_mem_write {v : Json} (h : Readable v) :
    Glyph.char '\r' ∉ write .ascii v := by
  intro hmem
  exact absurd (h.isAscii_of_mem_writeAt hmem) (by decide)

end RecordStore.Json
