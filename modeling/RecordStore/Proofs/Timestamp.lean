import Mathlib.Data.List.Basic
import Mathlib.Data.Option.Basic
import RecordStore.Date.Reader
import RecordStore.Header.Schema
import RecordStore.Proofs.Digits

/-!
# RecordStore.Proofs.Timestamp

Days and times are read back from the texts that records hold.

* `Date.ofText_text`: every day.
* `Schema.timeOfText_recordChars`: a time whose offset is missing or counts whole minutes of less
  than a day (`Timestamp.Recordable`).  A record shows an offset in hours and minutes, so that what
  a finer offset has of seconds is lost.

Whatever is read from a record is a recordable time (`Schema.recordable_of_time`).
-/

namespace RecordStore

open Date (padded)

/-! ## Digits by their number -/

namespace Date

/-- A number with one digit more. -/
theorem padded_succ {width : Nat} (hw : 0 < width) (n : Nat) :
    padded (width + 1) n = padded width (n / 10) ++ [Nat.digitChar (n % 10)] := by
  by_cases hn : n < 10
  · have hdiv : n / 10 = 0 := by omega
    have hmod : n % 10 = n := by omega
    obtain ⟨w, rfl⟩ : ∃ w, width = w + 1 := ⟨width - 1, by omega⟩
    simp only [padded, hdiv, hmod, Nat.toDigits_of_lt_base hn, Nat.toDigits_zero, List.length_singleton]
    simp [List.replicate_succ']
  · have hdigits := Nat.toDigits_of_base_le (by decide : 1 < 10) (Nat.not_lt.1 hn)
    simp only [padded, hdigits, List.length_append, List.length_singleton]
    simp

/-- Four digits are two and two. -/
theorem padded_four (n : Nat) : padded 4 n = padded 2 (n / 100) ++ padded 2 (n % 100) := by
  have hdiv : n / 10 / 10 = n / 100 := Nat.div_div_eq_div_mul n 10 10
  have htens : n % 100 / 10 = n / 10 % 10 := by omega
  have hunits : n % 100 % 10 = n % 10 := by omega
  have hone : padded 1 (n % 100 / 10) = [Nat.digitChar (n / 10 % 10)] := by
    have hlt : n / 10 % 10 < 10 := Nat.mod_lt _ (by decide)
    simp [htens, padded, Nat.toDigits_of_lt_base hlt]
  rw [padded_succ (by decide) n, padded_succ (by decide) (n / 10), hdiv,
    padded_succ (by decide) (n % 100), hone, hunits]
  simp

end Date

/-! ## Days -/

namespace Date

/-- The byte of a character below 128. -/
def byte (c : Char) : UInt8 := UInt8.ofNat c.toNat

theorem encodeChars_of_ascii {cs : List Char} (h : ∀ c ∈ cs, c.toNat < 0x80) :
    Utf8.encodeChars cs = cs.map byte := by
  induction cs with
  | nil => rfl
  | cons c cs ih =>
      have hc : c.toNat < 0x80 := h c List.mem_cons_self
      have hone : Utf8.encodeChar c = [byte c] := by simp [Utf8.encodeChar, hc, byte]
      have hcs := ih fun c hc => h c (List.mem_cons_of_mem _ hc)
      simp only [Utf8.encodeChars] at hcs ⊢
      rw [List.flatMap_cons, hone, hcs]
      rfl

theorem toNat_of_isDigit {c : Char} (h : c.isDigit = true) : 48 ≤ c.toNat ∧ c.toNat ≤ 57 :=
  Char.isDigit_iff_toNat.1 h

theorem toNat_byte {c : Char} (h : c.toNat < 0x80) : (byte c).toNat = c.toNat := by
  have hmod : c.toNat % 256 = c.toNat := by omega
  simpa [byte] using hmod

/-- Digits are read as the number that they stand for. -/
theorem digits?_map {cs : List Char} (h : ∀ c ∈ cs, c.isDigit = true) (n : Nat) (rest : Bytes) :
    digits? cs.length n (cs.map byte ++ rest) = some (Nat.ofDigitChars 10 cs n, rest) := by
  induction cs generalizing n with
  | nil => rfl
  | cons c cs ih =>
      have hc := toNat_of_isDigit (h c List.mem_cons_self)
      have hbyte := toNat_byte (c := c) (by omega)
      have hrange : 0x30 ≤ byte c ∧ byte c ≤ 0x39 := by
        simp only [UInt8.le_iff_toNat_le, hbyte, UInt8.reduceToNat]
        omega
      have ih := ih (fun c hc => h c (List.mem_cons_of_mem _ hc)) (10 * n + (c.toNat - 48))
      simp only [List.map_cons, List.cons_append, List.length_cons, digits?, if_pos hrange, hbyte]
      rw [ih]
      rfl

theorem digits?_padded {width n : Nat} (hw : 0 < width) (h : n < 10 ^ width) (rest : Bytes) :
    digits? width 0 ((padded width n).map byte ++ rest) = some (n, rest) := by
  have hmem : ∀ c ∈ padded width n, c.isDigit = true := fun _ => isDigit_of_mem_padded
  have hread := digits?_map hmem 0 rest
  rwa [length_padded hw h, ofDigitChars_padded] at hread

theorem daysInMonth_le (year month : Nat) : Calendar.daysInMonth year month ≤ 31 := by
  have hlengths : ∀ n ∈ Calendar.monthLengths year, n ≤ 31 := by
    unfold Calendar.monthLengths
    split <;> decide
  unfold Calendar.daysInMonth
  split
  · omega
  · cases hget : (Calendar.monthLengths year)[month - 1]? with
    | none => simp
    | some n => exact hlengths n (List.mem_of_getElem? hget)

/-- The bounds of the numbers of a day. -/
theorem bounds (d : Date) : d.year < 10 ^ 4 ∧ d.month < 10 ^ 2 ∧ d.day < 10 ^ 2 := by
  obtain ⟨⟨-, hy⟩, ⟨-, hm⟩, -, hd⟩ := d.valid
  have hdays := daysInMonth_le d.year d.month
  omega

theorem ascii_of_mem_padded {width n : Nat} {c : Char} (h : c ∈ padded width n) :
    c.toNat < 0x80 := by
  have hc := toNat_of_isDigit (isDigit_of_mem_padded h)
  omega

theorem ascii_of_mem_chars {d : Date} {c : Char} (h : c ∈ d.chars) : c.toNat < 0x80 := by
  simp only [chars, List.mem_append, List.mem_singleton] at h
  rcases h with (((h | rfl) | h) | rfl) | h
  · exact ascii_of_mem_padded h
  · decide
  · exact ascii_of_mem_padded h
  · decide
  · exact ascii_of_mem_padded h

/-- A month does not begin as the number of a week does. -/
theorem padded_ne_week (month : Nat) (rest more : Bytes) :
    (padded 2 month).map byte ++ rest ≠ 0x57 :: more := by
  intro heq
  obtain ⟨c, cs, hcs⟩ := List.exists_cons_of_ne_nil (padded_ne_nil 2 month)
  have hc := toNat_of_isDigit (isDigit_of_mem_padded (hcs ▸ List.mem_cons_self : c ∈ padded 2 month))
  have hbyte := toNat_byte (c := c) (by omega)
  rw [hcs, List.map_cons, List.cons_append, List.cons.injEq] at heq
  rw [heq.1] at hbyte
  simp at hbyte
  omega

/-- The month and the day are read back behind the year. -/
theorem readMonth?_text (d : Date) :
    readMonth? true ((padded 2 d.month).map byte ++ (0x2D :: (padded 2 d.day).map byte))
      = some (d.month, d.day) := by
  obtain ⟨-, hm, hd⟩ := d.bounds
  have hmonth := digits?_padded (by decide) hm (0x2D :: (padded 2 d.day).map byte)
  have hday := digits?_padded (by decide) hd []
  rw [List.append_nil] at hday
  simp [readMonth?, hmonth, hday, dash?, Text.dropPrefix?]

/-- **Days.** A day is read back from its text. -/
theorem ofText_text (d : Date) : Date.ofText d.text = .ok d := by
  obtain ⟨hy, hm, hd⟩ := d.bounds
  have hlength : (d.chars.map byte).length = 10 := by
    simp [chars, length_padded (by decide : 0 < 4) hy, length_padded (by decide : 0 < 2) hm,
      length_padded (by decide : 0 < 2) hd]
  have hyear := digits?_padded (by decide) hy
    (byte '-' :: ((padded 2 d.month).map byte ++ byte '-' :: (padded 2 d.day).map byte))
  have hchars : d.chars.map byte = (padded 4 d.year).map byte
      ++ (byte '-' :: ((padded 2 d.month).map byte ++ byte '-' :: (padded 2 d.day).map byte)) := by
    simp [chars]
  have hdash : byte '-' = 0x2D := by decide
  rw [ofText, text, Utf8.encode_ofChars, encodeChars_of_ascii fun _ => ascii_of_mem_chars]
  simp only [ofBytes, hlength, or_true, if_true]
  rw [hchars, hyear]
  simp only [hdash]
  split
  · next heq => exact absurd heq (padded_ne_week _ _ _)
  · simp only [readMonth?_text, make_self]
    rfl

end Date

/-! ## Times of day -/

namespace Schema

theorem natOfDigits_eq (ds : List Char) : natOfDigits ds = Nat.ofDigitChars 10 ds 0 := by
  rw [Nat.ofDigitChars_eq_foldl]
  rfl

theorem twoDigits?_padded {n : Nat} (h : n < 100) (rest : List Char) :
    twoDigits? (padded 2 n ++ rest) = some (n, rest) := by
  have hlength : (padded 2 n).length = 2 := Date.length_padded (by decide) h
  have hdigits : ∀ c ∈ padded 2 n, c.isDigit = true := fun _ => Date.isDigit_of_mem_padded
  have hvalue := Date.ofDigitChars_padded 2 n
  obtain ⟨a, b, hab⟩ := List.length_eq_two.1 hlength
  rw [hab] at hdigits hvalue ⊢
  have ha : a.isDigit = true := hdigits a (by simp)
  have hb : b.isDigit = true := hdigits b (by simp)
  simp [twoDigits?, ha, hb, natOfDigits_eq, hvalue]

/-- A day at the front of a text is read. -/
theorem datePart_chars (d : Date) (rest : List Char) :
    datePart (d.chars ++ rest) = .ok (d.year, d.month, d.day, rest) := by
  obtain ⟨hy, hm, hd⟩ := d.bounds
  obtain ⟨⟨-, -⟩, hmonth, hday⟩ := d.valid
  have hlength : ¬ (Utf8.encodeChars (d.chars ++ rest)).length < 10 := by
    have happ : Utf8.encodeChars (d.chars ++ rest)
        = Utf8.encodeChars d.chars ++ Utf8.encodeChars rest := List.flatMap_append
    have hchars : (d.chars.map Date.byte).length = 10 := by
      simp [Date.chars, Date.length_padded (by decide : 0 < 4) hy,
        Date.length_padded (by decide : 0 < 2) hm, Date.length_padded (by decide : 0 < 2) hd]
    rw [happ, Date.encodeChars_of_ascii fun _ => Date.ascii_of_mem_chars, List.length_append, hchars]
    omega
  have hyear : 100 * (d.year / 100) + d.year % 100 = d.year := by omega
  have hparts : d.chars ++ rest = padded 2 (d.year / 100) ++ (padded 2 (d.year % 100)
      ++ '-' :: (padded 2 d.month ++ '-' :: (padded 2 d.day ++ rest))) := by
    simp [Date.chars, Date.padded_four]
  have hmonth' : ¬ (d.month < 1 ∨ 12 < d.month) := by omega
  have hday' : ¬ (d.day < 1 ∨ Calendar.daysInMonth d.year d.month < d.day) := by omega
  unfold datePart
  rw [if_neg hlength, hparts]
  simp only [twoDigits?_padded (show d.year / 100 < 100 by omega),
    twoDigits?_padded (show d.year % 100 < 100 by omega), twoDigits?_padded hm,
    twoDigits?_padded hd, Text.dropPrefix?, if_true, Option.elim, hyear, bind, Except.bind, pure,
    Except.pure, if_neg hmonth', if_neg hday']

/-- What may follow a second: no digit and no mark of a fraction. -/
def EndsSecond (cs : List Char) : Prop :=
  ∀ c ∈ cs.head?, c.isDigit = false ∧ c ≠ '.' ∧ c ≠ ','

theorem takeWhile_padded (width n : Nat) {rest : List Char} (h : EndsSecond rest) :
    (padded width n ++ rest).takeWhile Char.isDigit = padded width n
      ∧ (padded width n ++ rest).dropWhile Char.isDigit = rest := by
  have hdigits : ∀ c ∈ padded width n, c.isDigit = true := fun _ => Date.isDigit_of_mem_padded
  have hrest : rest.takeWhile Char.isDigit = [] ∧ rest.dropWhile Char.isDigit = rest := by
    cases rest with
    | nil => exact ⟨rfl, rfl⟩
    | cons c cs => simp [(h c rfl).1]
  rw [List.takeWhile_append_of_pos hdigits, List.dropWhile_append_of_pos hdigits, hrest.1, hrest.2,
    List.append_nil]
  exact ⟨rfl, rfl⟩

/-- A second with its microseconds at the front of a text is read. -/
theorem secondPart?_chars {second micro : Nat} (hs : second < 60) (hm : micro < 10 ^ 6)
    {rest : List Char} (h : EndsSecond rest) :
    secondPart? (padded 2 second ++ ((if micro = 0 then [] else '.' :: padded 6 micro) ++ rest))
      = some (second, micro, rest) := by
  unfold secondPart?
  rw [twoDigits?_padded (by omega)]
  by_cases hzero : micro = 0
  · subst hzero
    cases rest with
    | nil => simp [hs, guard]
    | cons c cs => simp [hs, guard, (h c rfl).2]
  · have hlength : (padded 6 micro).length = 6 := Date.length_padded (by decide) hm
    have hnonempty : padded 6 micro ≠ [] := Date.padded_ne_nil 6 micro
    have htake : (padded 6 micro).take 6 = padded 6 micro := List.take_of_length_le (by omega)
    have hvalue : natOfDigits (padded 6 micro) = micro := by
      rw [natOfDigits_eq, Date.ofDigitChars_padded]
    obtain ⟨hdigits, hdrop⟩ := takeWhile_padded 6 micro h
    rw [if_neg hzero]
    simp only [hs, guard, List.cons_append, hdigits, hdrop, hlength, htake, ne_eq, hnonempty,
      not_false_eq_true, Option.bind_eq_bind, Option.bind_some, Option.pure_def, if_true, true_or,
      Nat.sub_self, List.replicate_zero, List.append_nil, hvalue]

/-! ## Offsets -/

/-- An offset of hours and minutes is read. -/
theorem offsetPart?_clock {hours minutes : Nat} (hh : hours < 24) (hm : minutes < 60)
    (negative : Bool) :
    offsetPart? ([if negative then '-' else '+'] ++ padded 2 hours ++ [':'] ++ padded 2 minutes)
      = some (some ((if negative then -1000000 else 1000000) * (3600 * (hours : Int) + 60 * minutes))) := by
  have hhours := twoDigits?_padded (by omega : hours < 100) (':' :: padded 2 minutes)
  have hminutes := twoDigits?_padded (by omega : minutes < 100) []
  rw [List.append_nil] at hminutes
  cases negative <;> simp [offsetPart?, guard, hhours, hminutes, hh, hm]

/-- The offset of a recordable time is read. -/
theorem offsetPart?_recordOffsetChars {offset : Int} (hminutes : 60000000 ∣ offset)
    (hday : offset.natAbs < 86400000000) :
    offsetPart? (Timestamp.recordOffsetChars offset) = some (some offset) := by
  obtain ⟨m, hm⟩ := hminutes
  have hseconds : (2 * offset.natAbs + 1000000) / 2000000 = 60 * m.natAbs := by omega
  unfold Timestamp.recordOffsetChars
  simp only [hseconds]
  by_cases hzero : 60 * m.natAbs = 0
  · have hoffset : offset = 0 := by omega
    rw [if_pos hzero, hoffset]
    rfl
  · have hhours : 60 * m.natAbs / 3600 < 24 := by omega
    have hminutes : 60 * m.natAbs / 60 % 60 < 60 := Nat.mod_lt _ (by decide)
    have hsum : 3600 * ((60 * m.natAbs / 3600 : Nat) : Int) + 60 * ((60 * m.natAbs / 60 % 60 : Nat) : Int)
        = 60 * (m.natAbs : Int) := by omega
    rw [if_neg hzero, Timestamp.offsetChars, offsetPart?_clock hhours hminutes, hsum]
    by_cases hneg : offset < 0
    · have habs : (m.natAbs : Int) = -m := by omega
      simp only [hneg, decide_true, if_true, habs, Option.some.injEq]
      omega
    · have habs : (m.natAbs : Int) = m := by omega
      simp only [hneg, decide_false, Bool.false_eq_true, if_false, habs, Option.some.injEq]
      omega

theorem endsSecond_offsetChars (negative : Bool) (seconds : Nat) :
    EndsSecond (Timestamp.offsetChars negative seconds) := by
  have hchars : Timestamp.offsetChars negative seconds = (if negative then '-' else '+')
      :: (padded 2 (seconds / 3600) ++ ':' :: padded 2 (seconds / 60 % 60)) := by
    simp [Timestamp.offsetChars]
  rw [hchars]
  cases negative <;> simp [EndsSecond]

theorem endsSecond_recordOffsetChars (offset : Int) :
    EndsSecond (Timestamp.recordOffsetChars offset) := by
  unfold Timestamp.recordOffsetChars
  generalize (2 * offset.natAbs + 1000000) / 2000000 = seconds
  by_cases hzero : seconds = 0
  · simp [hzero, EndsSecond]
  · simp only [hzero, if_false]
    exact endsSecond_offsetChars _ _

end Schema

/-! ## Times -/

/-- A time that a record can hold exactly: without an offset, or with one of whole minutes and less
than a day. -/
def Timestamp.Recordable (t : Timestamp) : Prop :=
  ∀ o ∈ t.offset, 60000000 ∣ o ∧ o.natAbs < 86400000000

namespace Schema

theorem ofParts_self (t : Timestamp) :
    ofParts t.date.year t.date.month t.date.day t.second t.microsecond t.offset = .ok t := by
  unfold ofParts
  rw [Date.make_self]
  simp [t.second_lt, t.microsecond_lt]

/-- A text that begins with a day is no number. -/
theorem textNumber?_chars (d : Date) (rest : List Char) : textNumber? (d.chars ++ rest) = none := by
  have hparts : d.chars ++ rest = padded 4 d.year
      ++ '-' :: (padded 2 d.month ++ '-' :: (padded 2 d.day ++ rest)) := by simp [Date.chars]
  have hends : EndsSecond ('-' :: (padded 2 d.month ++ '-' :: (padded 2 d.day ++ rest))) := by
    intro c hc
    cases hc
    decide
  obtain ⟨-, hdrop⟩ := takeWhile_padded 4 d.year hends
  obtain ⟨c, cs, hcs⟩ := List.exists_cons_of_ne_nil (Date.padded_ne_nil 4 d.year)
  have hc : c.isDigit = true := Date.isDigit_of_mem_padded (hcs ▸ List.mem_cons_self)
  have hsign : ∀ more, sign (c :: more) = (false, c :: more) := by
    intro more
    unfold sign
    split
    · next heq => cases heq; cases hc
    · next heq => cases heq; cases hc
    · rfl
  rw [hcs] at hdrop
  rw [hparts, hcs, textNumber?, List.cons_append, hsign]
  simp only [List.cons_append] at hdrop
  simp only [hdrop]
  rfl

/-- The text of an offset, empty when there is none, is read. -/
theorem offsetPart?_of_recordable {t : Timestamp} (h : t.Recordable) :
    offsetPart? ((t.offset.map Timestamp.recordOffsetChars).getD []) = some t.offset
      ∧ EndsSecond ((t.offset.map Timestamp.recordOffsetChars).getD []) := by
  cases ho : t.offset with
  | none => simp [offsetPart?, EndsSecond]
  | some o =>
      have hrange := h o ho
      have hread := offsetPart?_recordOffsetChars hrange.1 hrange.2
      rw [Option.map_some, Option.getD_some]
      exact ⟨hread, endsSecond_recordOffsetChars o⟩

/-- **Times.** A recordable time is read back from the text that a record holds. -/
theorem timeOfText_recordChars {t : Timestamp} (h : t.Recordable) :
    timeOfText (t.localChars ++ (t.offset.map Timestamp.recordOffsetChars).getD []) = .ok t := by
  obtain ⟨hoffset, hends⟩ := offsetPart?_of_recordable h
  have hbound := t.second_lt
  have hmicro : t.microsecond < 10 ^ 6 := t.microsecond_lt
  have hsum : 3600 * (t.second / 3600) + 60 * (t.second / 60 % 60) + t.second % 60 = t.second := by
    omega
  generalize hrest : (t.offset.map Timestamp.recordOffsetChars).getD [] = rest at *
  have hparts : t.localChars ++ rest = t.date.chars ++ ('T' :: (padded 2 (t.second / 3600)
      ++ ':' :: (padded 2 (t.second / 60 % 60) ++ ':' :: (padded 2 (t.second % 60)
        ++ ((if t.microsecond = 0 then [] else '.' :: padded 6 t.microsecond) ++ rest))))) := by
    simp [Timestamp.localChars]
  have hhour := twoDigits?_padded (by omega : t.second / 3600 < 100)
  have hminute := twoDigits?_padded (by omega : t.second / 60 % 60 < 100)
  have hsecond := secondPart?_chars (by omega : t.second % 60 < 60) hmicro hends
  have hvalid : t.second / 3600 < 24 ∧ t.second / 60 % 60 < 60 := by omega
  have hclock : clockPart? ('T' :: (padded 2 (t.second / 3600)
      ++ ':' :: (padded 2 (t.second / 60 % 60) ++ ':' :: (padded 2 (t.second % 60)
        ++ ((if t.microsecond = 0 then [] else '.' :: padded 6 t.microsecond) ++ rest)))))
      = some (t.second, t.microsecond, t.offset) := by
    simp [clockPart?, guard, hhour, hminute, hsecond, hvalid, hoffset, hsum, Text.dropPrefix?]
  rw [hparts, timeOfText, textNumber?_chars]
  simp only [timeOfDate, datePart_chars, bind, Except.bind, hclock, ofParts_self]

/-- A time, or null, is read back from a record. -/
theorem time_timeJson {t : Option Timestamp} (h : ∀ x ∈ t, x.Recordable) :
    time (Header.timeJson t) = .ok t := by
  cases t with
  | none => rfl
  | some x =>
      simp only [Header.timeJson, Timestamp.recordText, time, Text.toChars?_ofChars,
        timeOfText_recordChars (h x rfl)]
      rfl

/-! ## What is read -/

theorem offset_of_ofShown {n : Int} {offset : Option Int} {t : Timestamp}
    (h : Timestamp.ofShown n offset = .ok t) : t.offset = offset := by
  unfold Timestamp.ofShown at h
  dsimp only at h
  split at h
  · cases h
  · cases hd : Date.ofOrdinal ((n.fdiv 1000000).fdiv 86400).toNat with
    | error e => rw [hd] at h; cases h
    | ok d => rw [hd] at h; cases h; rfl

theorem recordable_of_offset_zero {t : Timestamp} (h : t.offset = some 0) : t.Recordable := by
  intro o ho
  rw [h] at ho
  cases ho
  decide

theorem recordable_of_ofUnix {n : Int} {t : Timestamp} (h : ofUnix n = .ok t) : t.Recordable := by
  unfold ofUnix at h
  dsimp only at h
  split at h
  · cases h
  · split at h
    · cases h
    · cases hshown : Timestamp.ofShown (n + unixDay * 86400 * 1000000) (some 0) with
      | error e => rw [hshown] at h; cases h
      | ok x =>
          rw [hshown] at h
          cases h
          exact recordable_of_offset_zero (offset_of_ofShown hshown)

theorem recordable_of_timeOfFloat {x : Binary64} {t : Timestamp} (h : timeOfFloat x = .ok t) :
    t.Recordable := by
  unfold timeOfFloat at h
  split at h
  · cases h
  · cases h
  · split at h
    · cases h
    · split at h
      · exact recordable_of_ofUnix h
      · exact recordable_of_ofUnix h

/-- An offset that is read counts whole minutes of less than a day. -/
theorem offsetPart?_range {cs : List Char} {offset : Option Int} (h : offsetPart? cs = some offset) :
    ∀ o ∈ offset, 60000000 ∣ o ∧ o.natAbs < 86400000000 := by
  intro o ho
  unfold offsetPart? at h
  split at h
  · cases h; cases ho
  · cases h; cases ho; decide
  · cases h; cases ho; decide
  · simp only [bind, Option.bind_eq_some_iff, Option.guard_eq_some'] at h
    obtain ⟨_, -, ⟨hours, cs₁⟩, -, ⟨minutes, cs₂⟩, -, _, ⟨-, hm, hh⟩, hoffset⟩ := h
    cases hoffset
    simp only [Option.mem_def, Option.some.injEq] at ho
    dsimp only at hm hh ho
    constructor
    · refine ⟨if o < 0 then -((60 * hours + minutes : Nat) : Int) else (60 * hours + minutes : Nat), ?_⟩
      split at ho <;> split <;> omega
    · split at ho <;> omega

theorem recordable_of_ofParts {year month day second micro : Nat} {offset : Option Int}
    {t : Timestamp} (h : ofParts year month day second micro offset = .ok t)
    (hoffset : ∀ o ∈ offset, 60000000 ∣ o ∧ o.natAbs < 86400000000) : t.Recordable := by
  unfold ofParts at h
  split at h
  · cases h
  · split at h
    · cases h; exact hoffset
    · cases h

theorem recordable_of_timeOfDate {cs : List Char} {t : Timestamp} (h : timeOfDate cs = .ok t) :
    t.Recordable := by
  unfold timeOfDate at h
  cases hd : datePart cs with
  | error e => rw [hd] at h; cases h
  | ok parts =>
      obtain ⟨year, month, day, rest⟩ := parts
      simp only [hd, bind, Except.bind] at h
      split at h
      · exact recordable_of_ofParts h nofun
      · split at h
        · next hclock =>
          refine recordable_of_ofParts h ?_
          unfold clockPart? at hclock
          split at hclock
          · simp only [bind, Option.bind_eq_some_iff] at hclock
            obtain ⟨_, -, _, -, _, -, _, -, _, -, hclock⟩ := hclock
            split at hclock
            all_goals
              simp only [Option.bind_eq_some_iff] at hclock
              obtain ⟨_, -, offset, hoffset, heq⟩ := hclock
              cases heq
              exact offsetPart?_range hoffset
          · cases hclock
        · cases h

theorem recordable_of_timeOfText {cs : List Char} {t : Timestamp} (h : timeOfText cs = .ok t) :
    t.Recordable := by
  unfold timeOfText at h
  split at h
  · exact recordable_of_timeOfDate h
  · next n _ =>
    cases hn : timeOfInt n with
    | error e => rw [hn] at h; cases h
    | ok x => rw [hn] at h; cases h; exact recordable_of_ofUnix hn
  · split at h
    · exact recordable_of_timeOfDate h
    · exact recordable_of_timeOfDate h
    · exact recordable_of_timeOfFloat h

/-- Every time that is read from a record is recordable. -/
theorem recordable_of_time {v : Json} {t : Option Timestamp} (h : time v = .ok t) :
    ∀ x ∈ t, x.Recordable := by
  have hmap : ∀ {r : Except TimeFault Timestamp}, (∀ x, r = .ok x → x.Recordable) →
      (r.map some).mapError SchemaFault.time = .ok t → ∀ x ∈ t, x.Recordable := by
    intro r hr heq x hx
    cases r with
    | error e => cases heq
    | ok y => cases heq; cases hx; exact hr _ rfl
  unfold time at h
  split at h
  · cases h; exact nofun
  · refine hmap (fun x hx => ?_) h
    unfold timeOfInteger at hx
    split at hx
    · cases hx
    · exact recordable_of_ofUnix hx
  · exact hmap (fun x hx => recordable_of_timeOfFloat hx) h
  · split at h
    · cases h
    · exact hmap (fun x hx => recordable_of_timeOfText hx) h
  · cases h

end Schema

end RecordStore
