import Mathlib.Data.List.Basic
import RecordStore.Proofs.Utf8
import RecordStore.RecordName

/-!
# RecordStore.Proofs.FileName

Which texts are names of files.  A text is a file name (`Path.IsFileName`) when what it leads along is
this one name, as a directory lists it, and the name is not too long.  Of a text without lone
surrogates this is so just when there is no slash and no null in it and it is neither empty nor a
single point, as far as its length allows (`isFileName_of_plain`); such a text without a slash is
at least never taken for another name (`kept_of_plain`).
-/

namespace RecordStore

namespace Utf8

/-! ## Escaped bytes -/

theorem encodeEscapedFrom_ofChars (pos : Nat) (cs : List Char) :
    encodeEscapedFrom pos (Text.ofChars cs) = .ok (encodeChars cs) := by
  induction cs generalizing pos with
  | nil => rfl
  | cons c cs ih =>
      have hcons : Text.ofChars (c :: cs) = .char c :: Text.ofChars cs := rfl
      rw [hcons, encodeEscapedFrom, ih]
      simp [Except.map, encodeChars]

/-- A text without lone surrogates has nothing escaped. -/
theorem encodeEscaped_ofChars (cs : List Char) :
    encodeEscaped (Text.ofChars cs) = .ok (encodeChars cs) :=
  encodeEscapedFrom_ofChars 0 cs

theorem length_encodeChar (c : Char) : 0 < (encodeChar c).length ∧ (encodeChar c).length ≤ 4 := by
  unfold encodeChar
  dsimp only
  split_ifs <;> simp

theorem length_encodeChars_le (cs : List Char) : (encodeChars cs).length ≤ 4 * cs.length := by
  induction cs with
  | nil => simp [encodeChars]
  | cons c cs ih =>
      have hc := (length_encodeChar c).2
      rw [encodeChars] at ih ⊢
      rw [List.flatMap_cons, List.length_append, List.length_cons]
      omega

/-- What characters were encoded to has nothing ill-formed in it. -/
theorem decodeEscaped_encodeChars (cs : List Char) :
    decodeEscaped (encodeChars cs) = Text.ofChars cs := by
  cases cs with
  | nil => rfl
  | cons c cs =>
      obtain ⟨n, hn⟩ : ∃ n, (encodeChars (c :: cs)).length = n + 1 := by
        refine Nat.exists_eq_add_one.2 ?_
        rw [encodeChars, List.flatMap_cons, List.length_append]
        have := (length_encodeChar c).1
        omega
      rw [decodeEscaped, hn, decodeEscapedUpTo, decode_encodeChars]

/-- The only character whose bytes hold a null is the null. -/
theorem zero_mem_encodeChar_iff {c : Char} : 0 ∈ encodeChar c ↔ c.toNat = 0 := by
  have hzero : ∀ {n : Nat}, n < 256 → ((0 : UInt8) = UInt8.ofNat n ↔ n = 0) := by
    intro n hn
    rw [eq_comm, ofNat_eq_iff hn]
    simp
  have hrange := toNat_range c
  unfold encodeChar
  dsimp only
  split_ifs <;> simp only [List.mem_cons, List.not_mem_nil, or_false]
  · rw [hzero (by omega)]
  · rw [hzero (by omega), hzero (by omega)]; omega
  · rw [hzero (by omega), hzero (by omega), hzero (by omega)]; omega
  · rw [hzero (by omega), hzero (by omega), hzero (by omega), hzero (by omega)]; omega

theorem zero_mem_encodeChars_iff {cs : List Char} : 0 ∈ encodeChars cs ↔ '\x00' ∈ cs := by
  have hnull : ∀ c : Char, c.toNat = 0 ↔ c = '\x00' := fun c => by
    rw [← Char.toNat_inj]; rfl
  simp only [encodeChars, List.mem_flatMap, zero_mem_encodeChar_iff, hnull, exists_eq_right]

end Utf8

namespace Path

open Utf8

variable {name t : Text} {cs : List Char}

/-! ## The text of a path -/

/-- What a text is cut at is in none of its pieces. -/
theorem not_mem_of_mem_splitOn {sep : Glyph} {piece : Text} (h : piece ∈ Text.splitOn sep t) :
    sep ∉ piece := by
  induction t generalizing piece with
  | nil => rw [List.mem_singleton.1 h]; exact List.not_mem_nil
  | cons g t ih =>
      rw [Text.splitOn] at h
      split_ifs at h with hg
      · rcases List.mem_cons.1 h with rfl | h
        · exact List.not_mem_nil
        · exact ih h
      · cases hpieces : Text.splitOn sep t with
        | nil =>
            rw [hpieces] at h
            rw [List.mem_singleton.1 h]
            simpa using Ne.symm hg
        | cons first pieces =>
            rw [hpieces] at h ih
            rcases List.mem_cons.1 h with rfl | h
            · simpa using ⟨Ne.symm hg, ih List.mem_cons_self⟩
            · exact ih (List.mem_cons_of_mem _ h)

/-- A text without the separator is one piece. -/
theorem splitOn_of_not_mem {sep : Glyph} (h : sep ∉ t) : Text.splitOn sep t = [t] := by
  induction t with
  | nil => rfl
  | cons g t ih =>
      have hg : g ≠ sep := fun heq => h (heq ▸ List.mem_cons_self)
      rw [Text.splitOn, if_neg hg, ih fun hmem => h (List.mem_cons_of_mem _ hmem)]

/-- A text is one name just when it is not cut and not left out. -/
theorem ofText_eq_singleton_iff :
    ofText name = [name] ↔ .char '/' ∉ name ∧ name ≠ [] ∧ name ≠ [.char '.'] := by
  constructor
  · intro h
    have hmem : name ∈ ofText name := by rw [h]; exact List.mem_singleton_self _
    obtain ⟨hpiece, hkept⟩ := List.mem_filter.1 hmem
    exact ⟨not_mem_of_mem_splitOn hpiece, by simpa using hkept⟩
  · rintro ⟨hslash, hne, hpoint⟩
    rw [ofText, splitOn_of_not_mem hslash, List.filter_singleton]
    simp [hne, hpoint]

theorem isAbsolute_of_slash_not_mem (h : .char '/' ∉ name) : isAbsolute name = false := by
  rw [isAbsolute, decide_eq_false_iff_not]
  exact fun hhead => h (List.mem_of_mem_head? hhead)

/-- No name on a path holds a slash, and none is empty or a single point. -/
theorem of_mem_ofText (h : name ∈ ofText t) : ofText name = [name] := by
  obtain ⟨hpiece, hkept⟩ := List.mem_filter.1 h
  exact ofText_eq_singleton_iff.2 ⟨not_mem_of_mem_splitOn hpiece, by simpa using hkept⟩

/-! ## Names of files -/

/-- A text that a file can have as its name, and that a directory then lists. -/
structure IsFileName (name : Text) : Prop where
  onDisk : onDisk name = .ok [name]
  short : isLong name = false

instance (name : Text) : Decidable (IsFileName name) :=
  decidable_of_iff ((Path.onDisk name).toOption = some [name] ∧ isLong name = false) <| by
    constructor
    · rintro ⟨h, hshort⟩
      cases hpath : Path.onDisk name with
      | error e => rw [hpath] at h; cases h
      | ok p => rw [hpath] at h; exact ⟨by rw [hpath, Option.some.inj h], hshort⟩
    · rintro ⟨h, hshort⟩
      exact ⟨by rw [h]; rfl, hshort⟩

/-- A text that is never taken for another name: what it leads along, if anything, is this one name. -/
def Kept (name : Text) : Prop := ∀ p, onDisk name = .ok p → p = [name]

theorem IsFileName.kept (h : IsFileName name) : Kept name := by
  intro p hp
  rw [h.onDisk] at hp
  exact (Except.ok.inj hp).symm

/-- What is on the way that a text leads along is on the way of some text. -/
theorem exists_ofText_of_onDisk {p : Path} (h : Path.onDisk name = .ok p) : ∃ t, p = ofText t := by
  unfold Path.onDisk at h
  cases hbytes : encodeEscaped name with
  | error e => rw [hbytes] at h; cases h
  | ok bytes =>
      rw [hbytes] at h
      simp only [Except.mapError, bind, Except.bind] at h
      split_ifs at h
      exact ⟨_, (Except.ok.inj h).symm⟩

/-- A text that leads along itself is one name as the text of a path. -/
theorem ofText_eq_of_onDisk (h : Path.onDisk name = .ok [name]) : ofText name = [name] := by
  obtain ⟨t, ht⟩ := exists_ofText_of_onDisk h
  have hmem : name ∈ ofText t := by rw [← ht]; exact List.mem_singleton_self _
  exact of_mem_ofText hmem

theorem IsFileName.ofText_eq (h : IsFileName name) : ofText name = [name] :=
  ofText_eq_of_onDisk h.onDisk

theorem IsFileName.slash_not_mem (h : IsFileName name) : .char '/' ∉ name :=
  (ofText_eq_singleton_iff.1 h.ofText_eq).1

/-- A text without lone surrogates leads along its names, unless there is a null in it. -/
theorem onDisk_ofChars (cs : List Char) : Path.onDisk (Text.ofChars cs)
    = if '\x00' ∈ cs then .error .null else .ok (ofText (Text.ofChars cs)) := by
  rw [Path.onDisk, encodeEscaped_ofChars]
  simp only [Except.mapError, bind, Except.bind, zero_mem_encodeChars_iff, decodeEscaped_encodeChars]
  rfl

theorem kept_of_plain (hplain : name.Plain) (hname : ofText name = [name]) : Kept name := by
  obtain ⟨cs, rfl⟩ := hplain
  intro p hp
  rw [onDisk_ofChars] at hp
  split_ifs at hp
  rw [← Except.ok.inj hp, hname]

/-- A text without lone surrogates is a file name if it is one name, without a null, and short. -/
theorem isFileName_of_plain (hname : ofText (Text.ofChars cs) = [Text.ofChars cs])
    (hnull : '\x00' ∉ cs) (hlength : (encodeChars cs).length ≤ nameLimit) :
    IsFileName (Text.ofChars cs) where
  onDisk := by rw [onDisk_ofChars, if_neg hnull, hname]
  short := by
    rw [isLong, encodeEscaped_ofChars]
    simpa using hlength

end Path

namespace RecordName

/-! ## Names of records -/

variable {name kind ident : Text}

theorem suffix_isSuffix_file (kind ident : Text) : suffix <:+ file kind ident := ⟨stem kind ident, rfl⟩

/-- As the text of a path, a name that ends as record files do is the one name that it is. -/
theorem ofText_of_isSuffix (hslash : .char '/' ∉ name) (hsuffix : suffix <:+ name) :
    Path.ofText name = [name] := by
  have hlength : 5 ≤ name.length := hsuffix.length_le
  refine Path.ofText_eq_singleton_iff.2 ⟨hslash, ?_, ?_⟩ <;> rintro rfl <;> simp at hlength

theorem file_ne_parentName (kind ident : Text) : file kind ident ≠ Path.parentName := by
  intro h
  have hlength : 5 ≤ (file kind ident).length := (suffix_isSuffix_file kind ident).length_le
  rw [h] at hlength
  exact absurd hlength (by decide)

theorem slash_not_mem_file_iff :
    .char '/' ∉ file kind ident ↔ .char '/' ∉ kind ∧ .char '/' ∉ ident := by
  have hseparator : Glyph.char '/' ∉ separator := by decide
  have hsuffix : Glyph.char '/' ∉ suffix := by decide
  simp [file, stem, hseparator, hsuffix]

theorem plain_file (hkind : kind.Plain) (hident : ident.Plain) : (file kind ident).Plain := by
  obtain ⟨cs, rfl⟩ := hkind
  obtain ⟨cs', rfl⟩ := hident
  refine ⟨cs ++ "-@".toList ++ cs' ++ ".json".toList, ?_⟩
  simp [file, stem, separator, suffix, Text.ofString, Text.ofChars]

/-- A record of a kind and an identifier without lone surrogates and slashes is stored under its own
name, or not at all. -/
theorem kept_file (hkind : kind.Plain) (hident : ident.Plain) (hslash : .char '/' ∉ file kind ident) :
    Path.Kept (file kind ident) :=
  Path.kept_of_plain (plain_file hkind hident) (ofText_of_isSuffix hslash (suffix_isSuffix_file _ _))

end RecordName

end RecordStore
