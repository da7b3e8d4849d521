import RecordStore.Proofs.Template.Marks

/-!
# RecordStore.Proofs.Template.Passes

A pass goes over a template from left to right and replaces what it finds.  What it makes of a text does
not depend on what stands behind the text (`Swept`), so it makes of two texts what it makes of each of
them (`Swept.append`).

Whatever a pass sets aside, the pieces that are left mean together with what was set aside what the pieces
meant before (`Leaves`).  One piece more in front of a template keeps this (`Leaves.turn`), whether the
pass keeps the piece, sets it aside, takes it away or changes something inside, so it holds of the whole
pass (`leaves_replace`), and of one pass after another (`Leaves.bind`).
-/

namespace RecordStore.Template

/-! ## Running a replacement -/

section Run

variable {α : Type} {m : Pass α} {g : α → Pass Text} {aside aside' : List Text} {a : α} {e : Failure}

theorem run_bind_of_ok (h : m.run aside = .ok (a, aside')) : (m >>= g).run aside = (g a).run aside' := by
  rw [StateT.run_bind, h]
  rfl

theorem run_bind_of_error (h : m.run aside = .error e) : (m >>= g).run aside = .error e := by
  rw [StateT.run_bind, h]
  rfl

end Run

section Replace

variable {α : Type} {f : α → Pass Text} {aside : List Text}

theorem replace_skip (t : Text) (parts : List (Glyph ⊕ α)) :
    (replace f (t.map .inl ++ parts)).run aside
      = ((replace f parts).run aside).map fun r => (t ++ r.1, r.2) := by
  induction t with
  | nil =>
      rw [List.map_nil, List.nil_append]
      cases (replace f parts).run aside <;> rfl
  | cons g t ih =>
      rw [List.map_cons, List.cons_append, replace, StateT.run_bind, ih]
      cases (replace f parts).run aside <;> rfl

theorem replace_found {a : α} {t : Text} {aside' : List Text} (h : (f a).run aside = .ok (t, aside'))
    (parts : List (Glyph ⊕ α)) : (replace f (.inr a :: parts)).run aside
      = ((replace f parts).run aside').map fun r => (t ++ r.1, r.2) := by
  rw [replace, run_bind_of_ok h, StateT.run_bind]
  cases (replace f parts).run aside' <;> rfl

theorem replace_failed {a : α} {e : Failure} (h : (f a).run aside = .error e)
    (parts : List (Glyph ⊕ α)) : (replace f (.inr a :: parts)).run aside = .error e := by
  rw [replace, run_bind_of_error h]

end Replace

/-! ## Sweeping -/

section Sweeping

variable {α : Type} {find? : Text → Option (α × Text)} {f : α → Pass Text} {aside more more' : List Text}
  {s s' t t' : Text} {a : α}

/-- What a pass makes of a text, whatever stands behind it: a text is left, and more texts are set
aside. -/
def Swept (find? : Text → Option (α × Text)) (f : α → Pass Text) (aside more : List Text)
    (s s' : Text) : Prop :=
  ∃ parts, (∀ rest, scan find? (s ++ rest) = parts ++ scan find? rest)
    ∧ ∀ behind, (replace f (parts ++ behind)).run aside
      = ((replace f behind).run (aside ++ more)).map fun r => (s' ++ r.1, r.2)

theorem Swept.run (h : Swept find? f aside more s s') (rest : Text) :
    (replace f (scan find? (s ++ rest))).run aside
      = ((replace f (scan find? rest)).run (aside ++ more)).map fun r => (s' ++ r.1, r.2) := by
  obtain ⟨parts, hscan, hreplace⟩ := h
  rw [hscan, hreplace]

/-- A pass over a whole text. -/
theorem Swept.run_all (h : Swept find? f aside more s s') :
    (replace f (scan find? s)).run aside = .ok (s', aside ++ more) := by
  have hrun := h.run []
  rw [List.append_nil, scan] at hrun
  rw [hrun]
  exact congrArg (fun t => Except.ok (t, aside ++ more)) (List.append_nil s')

/-- A text that is skipped is left as it is. -/
theorem Swept.skip (hs : Skips find? s) : Swept find? f aside [] s s := by
  refine ⟨s.map .inl, scan_append hs, fun behind => ?_⟩
  rw [replace_skip, List.append_nil]

/-- What is found is replaced. -/
theorem Swept.found (hfind : ∀ rest, find? (s ++ rest) = some (a, rest)) (hpos : 0 < s.length)
    (hrun : (f a).run aside = .ok (t, aside ++ more)) : Swept find? f aside more s t := by
  refine ⟨[.inr a], fun rest => ?_, fun behind => ?_⟩
  · have hlt : rest.length < (s ++ rest).length := by
      rw [List.length_append]
      omega
    rw [scan_found (hfind rest) hlt]
    rfl
  · exact replace_found hrun behind

/-- Two texts are swept over one after the other. -/
theorem Swept.append (hs : Swept find? f aside more s s') (ht : Swept find? f (aside ++ more) more' t t') :
    Swept find? f aside (more ++ more') (s ++ t) (s' ++ t') := by
  obtain ⟨parts, hscan, hreplace⟩ := hs
  obtain ⟨parts', hscan', hreplace'⟩ := ht
  refine ⟨parts ++ parts', fun rest => ?_, fun behind => ?_⟩
  · rw [List.append_assoc, hscan, hscan', List.append_assoc]
  · rw [List.append_assoc, hreplace, hreplace', List.append_assoc]
    cases (replace f behind).run (aside ++ (more ++ more')) with
    | error e => rfl
    | ok r => exact congrArg Except.ok (Prod.ext (List.append_assoc _ _ _).symm rfl)

end Sweeping

/-! ## Passes -/

section Passes

variable {α : Type} {find? : Text → Option (α × Text)} {f : α → Pass Text} {ctx : Context} {index : Text}
  {aside more : List Text} {h : Piece} {hs hs' : List Piece} {K : Piece → Prop}

/-- What a pass over pieces leaves: pieces of a sort and more texts set aside, with the meaning of the
pieces before, and no more texts than opening braces have gone.  A pass fails only where the pieces have
no meaning. -/
inductive Leaves (ctx : Context) (index : Text) (K : Piece → Prop) (aside : List Text) (hs : List Piece) :
    Except Failure (Text × List Text) → Prop
  | done (hs' : List Piece) (more : List Text) (kept : ∀ h ∈ hs', K h) (closed : Closed (aside ++ more) hs')
      (means : meaning ctx index (aside ++ more) hs' = meaning ctx index aside hs)
      (size : more.length + (printPieces hs').count (.char '{') ≤ (printPieces hs).count (.char '{')) :
      Leaves ctx index K aside hs (.ok (printPieces hs', aside ++ more))
  | failed (means : meaning ctx index aside hs = .error .longInteger) :
      Leaves ctx index K aside hs (.error .longInteger)

/-- Pieces that can take the place of one, with more texts set aside. -/
structure Turned (ctx : Context) (index : Text) (K : Piece → Prop) (aside more : List Text) (h : Piece)
    (hs' : List Piece) : Prop where
  kept : ∀ h' ∈ hs', K h'
  closed : Closed (aside ++ more) hs'
  means : meaning ctx index (aside ++ more) hs' = h.meaning ctx index aside
  size : more.length + (printPieces hs').count (.char '{') ≤ h.print.count (.char '{')

/-- A piece that stays. -/
theorem Turned.keep (hk : K h) (hc : Closed aside [h]) : Turned ctx index K aside [] h [h] := by
  rw [← List.append_nil aside] at hc
  refine ⟨by simpa using hk, hc, ?_, ?_⟩
  · rw [List.append_nil]
    exact joined_singleton _
  · simp [printPieces]

/-- A part that is set aside. -/
theorem Turned.put {p : Part} {t : Text} (hk : ∀ n, K (.mark n)) (ht : p.evaluate ctx index = .ok t)
    (hp : 1 ≤ p.print.count (.char '{')) : Turned ctx index K aside [t] (.part p) [.mark aside.length] := by
  refine ⟨by simpa using hk aside.length, ?_, ?_, ?_⟩
  · intro n hn
    cases List.mem_singleton.1 hn
    simp
  · have hget : (aside ++ [t])[aside.length]? = some t := by simp
    rw [Piece.meaning, ht, ← joined_singleton (.ok t), meaning, List.map_singleton, Piece.meaning, hget]
    rfl
  · have hmark : (mark aside.length).count (.char '{') = 0 := List.count_eq_zero.2 not_mem_mark
    simpa [printPieces, Piece.print, hmark] using hp

/-- A part that stands for nothing is taken away. -/
theorem Turned.drop {p : Part} (hp : p.evaluate ctx index = .ok []) :
    Turned ctx index K aside [] (.part p) [] :=
  ⟨by simp, by simp [Closed], hp.symm, Nat.zero_le _⟩

/-- What is left when the piece in front has given way. -/
theorem Leaves.turn {x : Except Failure (Text × List Text)} (hx : Leaves ctx index K (aside ++ more) hs x)
    (ht : Turned ctx index K aside more h hs') (hc : Closed aside hs) :
    Leaves ctx index K aside (h :: hs) (x.map fun r => (printPieces hs' ++ r.1, r.2)) := by
  have hsame : meaning ctx index (aside ++ more) hs = meaning ctx index aside hs := meaning_append hc more
  cases hx with
  | failed means =>
      refine .failed ?_
      rw [meaning_cons, ← hsame, means]
      cases hh : h.meaning ctx index aside with
      | error e => rw [h.failsLong_meaning e hh]; rfl
      | ok t => rfl
  | done hs₂ more₂ kept closed means size =>
      have hall : Leaves ctx index K aside (h :: hs)
          (.ok (printPieces (hs' ++ hs₂), aside ++ (more ++ more₂))) := by
        rw [List.append_assoc] at closed means
        refine .done _ _ ?_ ?_ ?_ ?_
        · exact List.forall_mem_append.2 ⟨ht.kept, kept⟩
        · intro n hn
          rcases List.mem_append.1 hn with hn | hn
          · have hlt := ht.closed n hn
            simp only [List.length_append] at hlt ⊢
            omega
          · exact closed n hn
        · have hfirst : meaning ctx index _ hs' = _ := meaning_append ht.closed more₂
          rw [List.append_assoc] at hfirst
          rw [meaning_cons, ← hsame, ← means, ← ht.means, ← hfirst]
          exact (congrArg joined List.map_append).trans (joined_append _ _)
        · have hsize := ht.size
          simp only [printPieces, List.flatMap_append, List.flatMap_cons, List.count_append,
            List.length_append] at hsize size ⊢
          omega
      rw [← List.append_assoc aside, printPieces, List.flatMap_append] at hall
      exact hall

/-- One pass after another. -/
theorem Leaves.bind {K' : Piece → Prop} {m : Pass Text} {g : Text → Pass Text}
    (hx : Leaves ctx index K aside hs (m.run aside))
    (hg : ∀ hs' aside', (∀ h ∈ hs', K h) → Closed aside' hs' →
      Leaves ctx index K' aside' hs' ((g (printPieces hs')).run aside')) :
    Leaves ctx index K' aside hs ((m >>= g).run aside) := by
  generalize hrun : m.run aside = x at hx
  cases hx with
  | failed means =>
      rw [run_bind_of_error hrun]
      exact .failed means
  | done hs' more kept closed means size =>
      have hnext := hg hs' (aside ++ more) kept closed
      rw [run_bind_of_ok hrun]
      generalize (g (printPieces hs')).run (aside ++ more) = y at hnext
      cases hnext with
      | failed means' => exact .failed (means.symm.trans means')
      | done hs'' more' kept' closed' means' size' =>
          rw [List.append_assoc] at closed' means' ⊢
          refine .done hs'' (more ++ more') kept' closed' (means'.trans means) ?_
          rw [List.length_append]
          omega

/-- A part that a search finds, and that is taken away where it stands for nothing, or set aside as what
it stands for. -/
structure Found (find? : Text → Option (α × Text)) (f : α → Pass Text) (ctx : Context) (index : Text)
    (p : Part) (a : α) : Prop where
  finds : ∀ rest, find? (p.print ++ rest) = some (a, rest)
  braces : 1 ≤ p.print.count (.char '{')
  becomes : (p.evaluate ctx index = .ok [] ∧ f a = pure []) ∨
    f a = do setAside (← StateT.lift (p.evaluate ctx index))

/-- A part that is found gives way to nothing, or to the mark of what it stands for. -/
theorem Found.swept {p : Part} {a : α} {t : Text} (hf : Found find? f ctx index p a)
    (ht : p.evaluate ctx index = .ok t) (aside : List Text) :
    (t = [] ∧ Swept find? f aside [] p.print [])
      ∨ Swept find? f aside [t] p.print (mark aside.length) := by
  have hpos : 0 < p.print.length := Nat.lt_of_lt_of_le hf.braces List.count_le_length
  rcases hf.becomes with ⟨hempty, hpure⟩ | hset
  · have hrun : (f a).run aside = .ok ([], aside ++ []) := by rw [hpure, List.append_nil]; rfl
    exact .inl ⟨Except.ok.inj (ht.symm.trans hempty), .found hf.finds hpos hrun⟩
  · have hrun : (f a).run aside = .ok (mark aside.length, aside ++ [t]) := by rw [hset, ht]; rfl
    exact .inr (.found hf.finds hpos hrun)

/-- A part that is found and stands for nothing that can be told ends the pass. -/
theorem Found.leaves_failed {p : Part} {a : α} {e : Failure} (hf : Found find? f ctx index p a)
    (hp : p.evaluate ctx index = .error e) : Leaves ctx index K aside (.part p :: hs)
      ((replace f (scan find? (printPieces (.part p :: hs)))).run aside) := by
  have hrun : (f a).run aside = .error e := by
    rcases hf.becomes with ⟨hempty, -⟩ | hset
    · cases hp.symm.trans hempty
    · rw [hset, hp]
      rfl
  have hlt : (printPieces hs).length < (p.print ++ printPieces hs).length := by
    have hpos : 0 < p.print.length := Nat.lt_of_lt_of_le hf.braces List.count_le_length
    rw [List.length_append]
    omega
  rw [printPieces_cons, Piece.print, scan_found (hf.finds _) hlt, replace_failed hrun,
    p.failsLong_evaluate ctx index e hp]
  refine .failed ?_
  rw [meaning_cons, Piece.meaning, hp, p.failsLong_evaluate ctx index e hp]
  rfl

/-- **A pass.** Where a pass finds the parts it is for, and turns the other pieces into pieces that can
take their place, it leaves pieces with the meaning of all. -/
theorem leaves_replace (hmark : ∀ n, K (.mark n)) (hc : Closed aside hs)
    (h : ∀ h ∈ hs, (∀ aside, Closed aside [h] → ∃ more hs',
        Swept find? f aside more h.print (printPieces hs') ∧ Turned ctx index K aside more h hs')
      ∨ ∃ p a, h = .part p ∧ Found find? f ctx index p a) :
    Leaves ctx index K aside hs ((replace f (scan find? (printPieces hs))).run aside) := by
  induction hs generalizing aside with
  | nil =>
      have hdone : Leaves ctx index K aside [] (.ok (printPieces [], aside ++ [])) :=
        .done [] [] (by simp) (by simp [Closed]) rfl (Nat.le_refl _)
      rw [List.append_nil] at hdone
      rw [printPieces, List.flatMap_nil, scan]
      exact hdone
  | cons x hs ih =>
      have ih := fun {aside} (hc : Closed aside hs) => ih hc fun y hy => h y (List.mem_cons_of_mem _ hy)
      have hgo : ∀ {more hs'}, Swept find? f aside more x.print (printPieces hs') →
          Turned ctx index K aside more x hs' →
          Leaves ctx index K aside (x :: hs) ((replace f (scan find? (printPieces (x :: hs)))).run aside) := by
        intro more hs' hswept hturned
        rw [printPieces_cons, hswept.run]
        exact (ih (hc.tail.append more)).turn hturned hc.tail
      rcases h x List.mem_cons_self with hturns | ⟨p, a, rfl, hfound⟩
      · have hx : Closed aside [x] := fun n hn => hc n (List.mem_cons.2 (.inl (List.mem_singleton.1 hn)))
        obtain ⟨more, hs', hswept, hturned⟩ := hturns aside hx
        exact hgo hswept hturned
      · cases hp : p.evaluate ctx index with
        | ok t =>
            rcases hfound.swept hp aside with ⟨rfl, hswept⟩ | hswept
            · have hprint : printPieces [] = [] := rfl
              exact hgo (hprint ▸ hswept) (.drop hp)
            · have hprint : printPieces [.mark aside.length] = mark aside.length := List.append_nil _
              exact hgo (hprint ▸ hswept) (.put hmark hp hfound.braces)
        | error e => exact hfound.leaves_failed hp

end Passes

end RecordStore.Template
