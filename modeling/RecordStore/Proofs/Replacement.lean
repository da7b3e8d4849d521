import RecordStore.Proofs.References

/-!
# RecordStore.Proofs.Replacement

Rewriting a text pass by pass.  A pass replaces every occurrence of a text by another one, from left to
right (`replaceAll`); where a single glyph is replaced, it is a rewriting of each glyph by itself
(`replaceAll_singleton`).  Escaping and unifying line breaks go over a text once, and each of them is some
passes one after the other: `escape_eq_passes`, `unifyBreaks_eq_passes`.
-/

namespace RecordStore.Text

open Template (scan scan_found dropPrefix?_append dropPrefix?_eq_none)

/-- A text in which every occurrence of `old`, from left to right, is replaced by `new`. -/
def replaceAll (old new t : Text) : Text :=
  (scan (fun t => (dropPrefix? old t).map (new, ·)) t).flatMap (Sum.elim ([·]) id)

section Passes

variable {old new t : Text} {g : Glyph}

@[simp] theorem replaceAll_nil (old new : Text) : replaceAll old new [] = [] := by
  rw [replaceAll, scan]
  rfl

/-- An occurrence at the front is replaced, and the pass goes on behind it. -/
theorem replaceAll_append_self (hne : old ≠ []) (new rest : Text) :
    replaceAll old new (old ++ rest) = new ++ replaceAll old new rest := by
  have hfound : (dropPrefix? old (old ++ rest)).map (new, ·) = some (new, rest) := by
    rw [dropPrefix?_append, Option.map_some]
  have hlt : rest.length < (old ++ rest).length := by
    have hpos := List.length_pos_iff.2 hne
    rw [List.length_append]
    omega
  rw [replaceAll, scan_found hfound hlt, List.flatMap_cons]
  rfl

/-- A glyph at which nothing is found stays, and the pass goes on behind it. -/
theorem replaceAll_cons (h : dropPrefix? old (g :: t) = none) (new : Text) :
    replaceAll old new (g :: t) = g :: replaceAll old new t := by
  rw [replaceAll, scan.eq_def]
  simp only [h, Option.map_none, List.flatMap_cons]
  rfl

/-- A pass over a glyph that does not begin what is replaced. -/
theorem replaceAll_cons_of_ne {first : Glyph} (h : g ≠ first) (old new t : Text) :
    replaceAll (first :: old) new (g :: t) = g :: replaceAll (first :: old) new t :=
  replaceAll_cons (dropPrefix?_eq_none fun heq => h (Option.some.inj heq)) new

/-- Replacing one glyph rewrites every glyph by itself. -/
theorem replaceAll_singleton (g : Glyph) (new t : Text) :
    replaceAll [g] new t = t.flatMap fun h => if h = g then new else [h] := by
  induction t with
  | nil => rw [replaceAll_nil, List.flatMap_nil]
  | cons h t ih =>
      rw [List.flatMap_cons, ← ih]
      by_cases heq : h = g
      · rw [if_pos heq, heq]
        exact replaceAll_append_self (List.cons_ne_nil g []) new t
      · rw [if_neg heq]
        exact replaceAll_cons_of_ne heq [] new t

/-- A pass for a glyph that a text does not hold leaves the text as it is. -/
theorem replaceAll_of_not_mem (h : g ∉ t) (new : Text) : replaceAll [g] new t = t := by
  induction t with
  | nil => exact replaceAll_nil [g] new
  | cons a t ih =>
      rw [List.mem_cons, not_or] at h
      rw [replaceAll_cons_of_ne (Ne.symm h.1), ih h.2]

/-- A pass that replaces one glyph may as well go over the pieces of a text. -/
theorem replaceAll_flatMap (g : Glyph) (new : Text) (form : Glyph → Text) (t : Text) :
    replaceAll [g] new (t.flatMap form) = t.flatMap fun h => replaceAll [g] new (form h) := by
  simp only [replaceAll_singleton, List.flatMap_assoc]

end Passes

/-! ## Escaping -/

/-- The passes that escape a text.  The one for ampersands comes first, so that the ampersands of the
references that the others write are not escaped again. -/
def escapePasses (t : Text) : Text :=
  replaceAll [.char '\''] "&#x27;" (replaceAll [.char '"'] "&quot;" (replaceAll [.char '>'] "&gt;"
    (replaceAll [.char '<'] "&lt;" (replaceAll [.char '&'] "&amp;" t))))

theorem escapePasses_singleton (g : Glyph) : escapePasses [g] = g.escaped := by
  have hkeep : ∀ {c : Char} (new : Text), g ≠ .char c → replaceAll [.char c] new [g] = [g] := by
    intro c new hne
    exact replaceAll_of_not_mem (by simpa using hne.symm) new
  unfold Glyph.escaped
  split
  case h_6 hamp hlt hgt hquot hapos =>
    rw [escapePasses, hkeep _ hamp, hkeep _ hlt, hkeep _ hgt, hkeep _ hquot, hkeep _ hapos]
  all_goals
    simp only [escapePasses, replaceAll_singleton]
    rfl

/-- **Escaping** a text once is escaping it pass by pass. -/
theorem escape_eq_passes (t : Text) : t.escape = escapePasses t := by
  have hpieces : escapePasses (t.flatMap ([·])) = t.flatMap fun g => escapePasses [g] := by
    simp only [escapePasses, replaceAll_flatMap]
  rw [List.flatMap_singleton'] at hpieces
  rw [hpieces, escape]
  simp only [escapePasses_singleton]

/-! ## Line breaks -/

/-- The passes that unify line breaks: first the pairs, then the carriage returns that are left. -/
def unifyPasses (t : Text) : Text :=
  replaceAll [.char '\r'] [.char '\n'] (replaceAll [.char '\r', .char '\n'] [.char '\n'] t)

/-- **Unifying line breaks** once is unifying them pass by pass. -/
theorem unifyBreaks_eq_passes (t : Text) : t.unifyBreaks = unifyPasses t := by
  have hne : Glyph.char '\n' ≠ .char '\r' := by decide
  unfold unifyPasses
  fun_induction unifyBreaks t with
  | case1 t ih =>
      have hpair := replaceAll_append_self (List.cons_ne_nil (Glyph.char '\r') [.char '\n']) [.char '\n'] t
      rw [ih]
      simp only [List.cons_append, List.nil_append] at hpair
      rw [hpair, replaceAll_cons_of_ne hne]
  | case2 t hnot ih =>
      have hlone : dropPrefix? [.char '\r', .char '\n'] (.char '\r' :: t) = none := by
        cases h : dropPrefix? [Glyph.char '\r', .char '\n'] (.char '\r' :: t) with
        | none => rfl
        | some rest => exact (hnot rest (List.cons.inj (dropPrefix?_eq_some_iff.1 h)).2).elim
      have hcr := replaceAll_append_self (List.cons_ne_nil (Glyph.char '\r') []) [.char '\n']
        (replaceAll [.char '\r', .char '\n'] [.char '\n'] t)
      rw [replaceAll_cons hlone, ih]
      exact hcr.symm
  | case3 g t _ hcr ih =>
      rw [replaceAll_cons_of_ne hcr, replaceAll_cons_of_ne hcr, ih]
  | case4 => rw [replaceAll_nil, replaceAll_nil]

end RecordStore.Text
