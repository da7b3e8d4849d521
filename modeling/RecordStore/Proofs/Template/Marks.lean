import Mathlib.Algebra.Ring.Nat
import RecordStore.Proofs.Template.Evaluate

/-!
# RecordStore.Proofs.Template.Marks

Templates that are rendered in part: parts that are still there stand between the marks of what was
set aside (`Piece`).  What such a template means does not change when more is set aside
(`meaning_append`), and once no part but texts is left, putting what was set aside in the place of its
mark gives the meaning (`restore_printPieces`).
-/

namespace RecordStore.Template

/-! ## Pieces -/

/-- A piece of a template that is rendered in part. -/
inductive Piece where
  | part (p : Part)
  | mark (n : Nat)

/-- A piece as text. -/
def Piece.print : Piece → Text
  | .part p => p.print
  | .mark n => Template.mark n

/-- Pieces as text. -/
def printPieces (hs : List Piece) : Text := hs.flatMap Piece.print

/-- What a piece stands for, given what was set aside. -/
def Piece.meaning (ctx : Context) (index : Text) (aside : List Text) : Piece → Except Failure Text
  | .part p => p.evaluate ctx index
  | .mark n => .ok (aside[n]?.getD [])

/-- What pieces stand for. -/
def meaning (ctx : Context) (index : Text) (aside : List Text) (hs : List Piece) : Except Failure Text :=
  joined (hs.map (Piece.meaning ctx index aside))

/-- All marks are of something that was set aside. -/
def Closed (aside : List Text) (hs : List Piece) : Prop := ∀ n, .mark n ∈ hs → n < aside.length

section Pieces

variable {ctx : Context} {index : Text} {aside : List Text} {h : Piece} {hs : List Piece}

@[simp] theorem printPieces_cons : printPieces (h :: hs) = h.print ++ printPieces hs := rfl

@[simp] theorem meaning_cons : meaning ctx index aside (h :: hs)
    = do return (← h.meaning ctx index aside) ++ (← meaning ctx index aside hs) := rfl

theorem Closed.tail (hc : Closed aside (h :: hs)) : Closed aside hs :=
  fun n hn => hc n (List.mem_cons_of_mem _ hn)

theorem Closed.append (hc : Closed aside hs) (more : List Text) : Closed (aside ++ more) hs := by
  intro n hn
  have hlt := hc n hn
  rw [List.length_append]
  omega

theorem Piece.failsLong_meaning (h : Piece) : FailsLong (h.meaning ctx index aside) := by
  cases h with
  | part p => exact p.failsLong_evaluate ctx index
  | mark n => exact .ok _

theorem Piece.meaning_append (hc : Closed aside [h]) (more : List Text) :
    h.meaning ctx index (aside ++ more) = h.meaning ctx index aside := by
  cases h with
  | part p => rfl
  | mark n =>
      have hlt := hc n List.mem_cons_self
      rw [Piece.meaning, Piece.meaning, List.getElem?_append_left hlt]

/-- What pieces stand for does not change when more is set aside. -/
theorem meaning_append (hc : Closed aside hs) (more : List Text) :
    meaning ctx index (aside ++ more) hs = meaning ctx index aside hs := by
  refine congrArg joined (List.map_congr_left fun h hh => ?_)
  refine Piece.meaning_append (fun n hn => ?_) more
  obtain rfl := List.mem_singleton.1 hn
  exact hc n hh

/-- A template all of whose parts are still there. -/
theorem printPieces_parts (ps : List Part) : printPieces (ps.map .part) = print ps := by
  induction ps with
  | nil => rfl
  | cons p ps ih =>
      rw [List.map_cons, printPieces_cons, ih]
      rfl

theorem meaning_parts (ps : List Part) : meaning ctx index aside (ps.map .part) = evaluate ctx index ps := by
  induction ps with
  | nil => rfl
  | cons p ps ih =>
      rw [List.map_cons, meaning_cons, ih]
      rfl

end Pieces

/-! ## Reading marks -/

section Marks

variable {n : Nat}

theorem digit?_of_isDigit {c : Char} (h : c.isDigit = true) :
    (Glyph.char c).digit? = some (c.toNat - '0'.toNat) := by
  have hlow : 48 ≤ c.toNat := (Char.isDigit_iff_toNat.1 h).1
  have hhigh : c.toNat ≤ 57 := (Char.isDigit_iff_toNat.1 h).2
  obtain ⟨zeros, hzeros⟩ : ∃ zeros, digitZeros = 0x30 :: zeros := ⟨_, rfl⟩
  have hin : (decide (0x30 ≤ (Glyph.char c).code) && decide ((Glyph.char c).code < 0x30 + 10)) = true :=
    Bool.and_eq_true_iff.2 ⟨decide_eq_true hlow, decide_eq_true (Nat.lt_succ_of_le hhigh)⟩
  rw [Glyph.digit?, hzeros,
    List.find?_cons_of_pos (p := fun z => z ≤ (Glyph.char c).code && (Glyph.char c).code < z + 10) hin]
  rfl

/-- The digits of a number are read as the number. -/
theorem readDigits_ofNat (n : Nat) : readDigits ((Text.ofNat n).filterMap Glyph.digit?) = n := by
  have hdigits : ∀ {cs : List Char}, (∀ c ∈ cs, c.isDigit = true) →
      (cs.map Glyph.char).filterMap Glyph.digit? = cs.map fun c => c.toNat - '0'.toNat := by
    intro cs hcs
    induction cs with
    | nil => rfl
    | cons c cs ih =>
        have hc := digit?_of_isDigit (hcs c List.mem_cons_self)
        rw [List.map_cons, List.filterMap_cons_some hc, ih fun d hd => hcs d (List.mem_cons_of_mem _ hd),
          List.map_cons]
  rw [Text.ofNat, Text.ofChars, hdigits fun c hc => Nat.isDigit_of_mem_toDigits (by decide) (by decide) hc,
    readDigits, List.foldl_map]
  have hvalue : Nat.ofDigitChars 10 (Nat.toDigits 10 n) 0 = n := Nat.ofDigitChars_ten_toDigits
  rwa [Nat.ofDigitChars_eq_foldl] at hvalue

theorem isSome_digit?_of_mem_ofNat {g : Glyph} (h : g ∈ Text.ofNat n) : g.digit?.isSome = true := by
  obtain ⟨c, hc, rfl⟩ := List.mem_map.1 h
  rw [digit?_of_isDigit (Nat.isDigit_of_mem_toDigits (by decide) (by decide) hc), Option.isSome_some]

theorem ofNat_ne_nil (n : Nat) : Text.ofNat n ≠ [] := by
  simp [Text.ofNat, Text.ofChars, Nat.toDigits_ne_nil]

/-- A mark is found where it is printed. -/
theorem mark?_mark (n : Nat) (rest : Text) :
    mark? (mark n ++ rest) = some ((Text.ofNat n).filterMap Glyph.digit?, rest) := by
  have hstop : ∀ g ∈ ([markEnd] ++ rest).head?, g.digit?.isSome = false := by
    intro g hg
    obtain rfl : markEnd = g := Option.some.inj hg
    decide +kernel
  obtain ⟨htake, hdrop⟩ := takeWhile_append_stop (fun g hg => isSome_digit?_of_mem_ofNat (n := n) hg) hstop
  unfold mark?
  rw [mark, List.append_assoc, List.append_assoc]
  simp only [dropPrefix?_append, htake, hdrop, ofNat_ne_nil, guard, Option.bind_eq_bind, Option.bind_some,
    Option.pure_def, ne_eq, not_false_eq_true, if_true]

/-- A mark stands for what was set aside under its number, as long as the number can be read. -/
theorem textOfMark_ofNat {aside : List Text} (hlimit : n < 10 ^ Json.digitLimit) :
    textOfMark aside ((Text.ofNat n).filterMap Glyph.digit?)
      = aside[n]?.elim (.error (.noPlaceholder n)) .ok := by
  have hlength : ((Text.ofNat n).filterMap Glyph.digit?).length ≤ Json.digitLimit := by
    refine Nat.le_trans (List.length_filterMap_le _ _) ?_
    rw [Text.ofNat, Text.ofChars, List.length_map]
    exact (Nat.length_toDigits_le_iff (by decide) (by decide)).2 hlimit
  rw [textOfMark, if_neg (Nat.not_lt.2 hlength), readDigits_ofNat]
  cases aside[n]? <;> rfl

theorem textOfMark_eq {aside : List Text} (hn : n < aside.length)
    (hlimit : aside.length ≤ 10 ^ Json.digitLimit) :
    textOfMark aside ((Text.ofNat n).filterMap Glyph.digit?) = .ok (aside[n]?.getD []) := by
  rw [textOfMark_ofNat (Nat.lt_of_lt_of_le hn hlimit), List.getElem?_eq_getElem hn]
  rfl

theorem not_mem_mark : Glyph.char '{' ∉ mark n := by
  refine List.not_mem_append (List.not_mem_append (by decide) ?_) (by decide)
  intro hmem
  cases isPlainGlyph_of_mem_ofNat hmem

end Marks

/-! ## Putting back what was set aside -/

section Restore

variable {ctx : Context} {index : Text} {aside : List Text} {hs : List Piece}

/-- A piece in which nothing is left to be rendered: a mark, or a text without the ends of marks. -/
def Piece.Done : Piece → Prop
  | .mark _ => True
  | .part p => ∃ t, p = .text t ∧ t.all isPlainGlyph = true

theorem go_append {t : Text} (parts : List (Glyph ⊕ List Nat)) :
    restore.go aside (t.map .inl ++ parts) = (restore.go aside parts).map (t ++ ·) := by
  induction t with
  | nil =>
      rw [List.map_nil, List.nil_append]
      cases restore.go aside parts <;> rfl
  | cons g t ih =>
      rw [List.map_cons, List.cons_append, restore.go, ih]
      cases restore.go aside parts <;> rfl

/-- **Putting back.** When nothing is left to be rendered, putting back what was set aside gives what the
pieces stand for. -/
theorem restore_printPieces (hdone : ∀ h ∈ hs, h.Done) (hc : Closed aside hs)
    (hlimit : aside.length ≤ 10 ^ Json.digitLimit) :
    restore aside (printPieces hs) = meaning ctx index aside hs := by
  unfold restore
  induction hs with
  | nil => rw [printPieces, List.flatMap_nil, scan]; rfl
  | cons h hs ih =>
      have ih := ih (fun x hx => hdone x (List.mem_cons_of_mem _ hx)) hc.tail
      rw [printPieces_cons, meaning_cons, ← ih]
      cases h with
      | mark n =>
          have hn : n < aside.length := hc n List.mem_cons_self
          have hlt : (printPieces hs).length < (mark n ++ printPieces hs).length := by
            simp only [mark, List.length_append, List.length_cons]
            omega
          rw [Piece.print, scan_found (mark?_mark n _) hlt, restore.go, textOfMark_eq hn hlimit]
          rfl
      | part p =>
          obtain ⟨t, rfl, ht⟩ := hdone _ List.mem_cons_self
          have hskips : Skips mark? t := by
            refine skips_of_not_mem markEnd (fun s hs => ?_) (not_mem_of_isPlainGlyph ht).2
            rw [mark?, dropPrefix?_eq_none hs]
            rfl
          rw [Piece.print, Part.print, scan_append hskips, go_append]
          rfl

end Restore

end RecordStore.Template
