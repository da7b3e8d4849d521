import RecordStore.Proofs.Template.Render

/-!
# RecordStore.Proofs.Template.Nested

Blocks in each other in any order.  A template renders to what it means wherever no pass gets in the way of
another (`render_inOrder`): an `each` may lie in an `if` that is taken away, and an `if` that is taken away
in an `unless` that is rendered.

Elsewhere a template may fail to be rendered, or be rendered to something else.

* A block inside a rendered block of a later pass leaves its mark there.  The body is rendered on its own,
  and under the number of the mark nothing was set aside there (`render_block_inside`), or something else
  (`render_value_inside`).
* A block inside one of its own form ends with its closing tag the outer one as well (`block?_nested`).
-/

namespace RecordStore.Template

section Nested

variable {inner : Context → Text → Except Failure Text} {ctx : Context} {s t : Text} {n : Nat}
  {aside : List Text} {form : BlockForm} {allowed : BlockForm → Bool} {inEach : Bool} {ps : List Part}

theorem le_pow_digitLimit (h : n ≤ Json.digitLimit) : n ≤ 10 ^ Json.digitLimit :=
  Nat.le_trans h (Nat.le_of_lt (Nat.lt_pow_self (by decide)))

/-- **Rendering of nested blocks.** A template that is told by its text renders to what it means in every
context in which no pass gets in the way of another, whatever the order in which its blocks lie in each
other.  The bound on the braces is that of `render_print`. -/
theorem render_inOrder (ctx : Context) (index : Text) (ps : List Part)
    (hps : proper (fun _ => true) false ps = true) (horder : inOrder 0 ctx index ps = true)
    (hlimit : (print ps).count (.char '{') ≤ 10 ^ Json.digitLimit) :
    render ctx (print ps) = evaluate ctx index ps :=
  renderDepth_inOrder _ hlimit ctx index ps hps horder (Nat.lt_succ_self _)

/-- A template in which blocks of earlier passes lie in blocks of later ones. -/
def nestedTemplate : List Part := [
  .block .unlessHolds "nothing" [
    .value "name",
    .block .each "name" [.text "no"],
    .block .ifHolds "nothing" [.block .each "items" [.value "this"], .text "no"],
    .text ":"],
  .block .ifHolds "nothing" [.text "no", .block .each "items" [.value "name"]],
  .block .each "items" [
    .index, .block .unlessHolds "done" [.block .ifHolds "nothing" [.text "no"], .text ";"]]]

theorem render_inOrder_nested :
    proper (fun _ => true) false nestedTemplate = true
      ∧ inOrder 0 sampleContext [] nestedTemplate = true
      ∧ supported 3 false nestedTemplate = false
      ∧ render sampleContext (print nestedTemplate)
        = .ok (Text.ofString "\x000\x00\x7b\x7bitems\x7d\x7d:01;2;") := by
  have hproper : proper (fun _ => true) false nestedTemplate = true := by decide +kernel
  have horder : inOrder 0 sampleContext [] nestedTemplate = true := by decide +kernel
  have hlimit : (print nestedTemplate).count (.char '{') ≤ 10 ^ Json.digitLimit :=
    le_pow_digitLimit (by decide +kernel)
  refine ⟨hproper, horder, by decide +kernel, ?_⟩
  exact (render_inOrder sampleContext [] nestedTemplate hproper horder hlimit).trans rfl

/-! ## Passes with little to do -/

/-- The pass for a form leaves what has no block of the form. -/
theorem pass_skips (f : Block → Pass Text) (aside : List Text)
    (hps : proper (without form allowed) inEach ps = true) :
    (replace f (scan (block? form) (print ps))).run aside = .ok (print ps, aside) := by
  have hswept : Swept (block? form) f aside [] (print ps) (print ps) := .skip (skips_block? hps)
  have hrun := hswept.run_all
  rwa [List.append_nil] at hrun

theorem proper_of_no_block (hps : proper (fun _ => false) inEach ps = true) : proper allowed inEach ps = true :=
  proper_mono (fun _ h => absurd h Bool.false_ne_true) hps

/-- Where there are no blocks, the pass for values does everything. -/
theorem passes_of_no_block (hps : proper (fun _ => false) inEach ps = true) :
    (passes inner ctx (print ps)).run aside
      = (replace (replaceValue ctx) (scan substitution? (print ps))).run aside := by
  have hskips : ∀ form f, (replace f (scan (block? form) (print ps))).run aside = .ok (print ps, aside) := by
    intro form f
    have hnone : proper (without form fun _ => false) inEach ps = true := proper_of_no_block hps
    exact pass_skips f aside hnone
  rw [passes, run_bind_of_ok (hskips _ _), run_bind_of_ok (hskips _ _), run_bind_of_ok (hskips _ _)]

theorem proper_mark : proper allowed inEach [.text (mark n)] = true :=
  proper_cons_iff.2 ⟨all_ne_iff.2 not_mem_mark, rfl⟩

/-- The pass for values leaves a mark. -/
theorem swept_mark (f : Substitution → Pass Text) : Swept substitution? f aside [] (mark n) (mark n) :=
  .skip (skips_mark (fun _ => substitution?_eq_none) n)

/-- What is put back in the place of a mark on its own. -/
theorem restore_mark (hn : n < 10 ^ Json.digitLimit) :
    restore aside (mark n) = aside[n]?.elim (.error (.noPlaceholder n)) .ok := by
  have hlt : ([] : Text).length < (mark n).length := by simp [mark]
  have hfind := mark?_mark n []
  rw [List.append_nil] at hfind
  rw [restore, scan_found hfind hlt, restore.go, textOfMark_ofNat hn, scan, restore.go]
  cases aside[n]? with
  | none => rfl
  | some t => exact congrArg Except.ok (List.append_nil t)

theorem renderWith_of_passes (h : (passes inner ctx s).run [] = .ok (t, aside)) :
    renderWith inner ctx s = restore aside t := by
  rw [renderWith, h]
  rfl

theorem exists_renderDepth_eq (depth : Nat) : ∃ inner, renderDepth depth = renderWith inner := by
  cases depth <;> exact ⟨_, rfl⟩

end Nested

/-! ## Blocks inside blocks of later passes -/

/-- A block inside a conditional block for a later pass, behind parts without blocks.  Both are rendered,
the inner one to a text, and there is no block for a pass before theirs. -/
structure Inside (ctx : Context) (index path path' t : Text) (form form' : BlockForm)
    (before body : List Part) : Prop where
  later : form.rank < form'.rank
  told : (Part.block form path (before ++ [.block form' path' body])).proper
    (fun form₁ => form₁.rank ≤ form'.rank) false = true
  plain : proper (fun _ => false) false before = true
  order : (Part.block form' path' body).inOrder 0 ctx index = true
  shows : form.shows ctx path = true
  shows' : form'.shows ctx path' = true
  means : (Part.block form' path' body).evaluate ctx index = .ok t
  limit : (Part.block form path (before ++ [.block form' path' body])).print.count (.char '{')
    ≤ 10 ^ Json.digitLimit

namespace Inside

variable {inner : Context → Text → Except Failure Text} {ctx : Context} {index path path' t : Text}
  {n : Nat} {form form' : BlockForm} {before body : List Part} {allowed : BlockForm → Bool}

theorem conditional (h : Inside ctx index path path' t form form' before body) : form ≠ .each :=
  BlockForm.ne_each_of_rank_lt h.later

theorem path_proper (h : Inside ctx index path path' t form form' before body) :
    isPath path = true ∧ (Part.block form' path' body).proper
      (without form fun form₁ => form₁.rank ≤ form'.rank) false = true := by
  obtain ⟨-, hpath, hbody⟩ := Part.proper_block_iff.1 h.told
  rw [decide_eq_false h.conditional, Bool.or_false, proper_append_iff] at hbody
  exact ⟨hpath, (proper_cons_iff.1 hbody.2).1⟩

/-- The block is set aside, and its mark stays in the body of the outer block. -/
theorem first (h : Inside ctx index path path' t form form' before body) (hinner : RightBelow n inner)
    (hn : (print body).count (.char '{') < n) :
    (replace (replaceBlock inner ctx form')
      (scan (block? form') (print [.block form path (before ++ [.block form' path' body])]))).run []
        = .ok (print [.block form path (before ++ [.text (mark 0)])], [t]) := by
  obtain ⟨hpath, hproper⟩ := h.path_proper
  obtain ⟨-, hsettings, -⟩ := (Part.inOrder_block_iff form'.rank_pos).1 h.order
  have hrun : (replaceBlock inner ctx form' ⟨path', print body⟩).run [] = .ok (mark 0, [] ++ [t]) := by
    rw [replaceBlock_of_shows hinner hn hproper h.shows' (hsettings h.shows').1, h.means]
    rfl
  have hbefore : proper (without form' fun _ => false) false before = true := proper_of_no_block h.plain
  have hbody : Swept (block? form') (replaceBlock inner ctx form') [] ([] ++ [t])
      (print (before ++ [.block form' path' body])) (print (before ++ [.text (mark 0)])) := by
    rw [print_append, print_append, print_singleton, print_singleton]
    exact (Swept.skip (skips_block? hbefore)).append (.found (block?_block hproper) print_block_pos hrun)
  have hne : form ≠ form' := BlockForm.ne_of_rank_lt h.later
  rw [print_singleton, print_singleton]
  exact (swept_block hne hpath hbody).run_all

/-- The outer block with the mark in it is told by its text. -/
theorem proper_held (h : Inside ctx index path path' t form form' before body) (hform : allowed form = true) :
    (Part.block form path (before ++ [.text (mark 0)])).proper allowed false = true := by
  refine Part.proper_block_iff.2 ⟨hform, h.path_proper.1, ?_⟩
  rw [decide_eq_false h.conditional]
  exact proper_append_iff.2 ⟨proper_of_no_block h.plain, proper_mark⟩

/-- The body of the outer block is rendered with the mark in it. -/
theorem second (h : Inside ctx index path path' t form form' before body) :
    (replace (replaceBlock inner ctx form)
      (scan (block? form) (print [.block form path (before ++ [.text (mark 0)])]))).run [t]
        = (inner ctx (print (before ++ [.text (mark 0)]))).map fun u => (mark 1, [t, u]) := by
  have hproper : (Part.block form path (before ++ [.text (mark 0)])).proper (fun _ => true) false = true :=
    h.proper_held rfl
  have hbecomes : (replaceBlock inner ctx form ⟨path, print (before ++ [.text (mark 0)])⟩).run [t]
      = (inner ctx (print (before ++ [.text (mark 0)]))).map fun u => (mark 1, [t, u]) := by
    rw [replaceBlock_of_conditional h.conditional h.shows]
    cases inner ctx (print (before ++ [.text (mark 0)])) <;> rfl
  have hfind := block?_block hproper
  rw [print_singleton]
  cases hr : inner ctx (print (before ++ [.text (mark 0)])) with
  | error e =>
      rw [hr] at hbecomes
      have hfront := hfind []
      rw [List.append_nil] at hfront
      rw [scan_found hfront print_block_pos, replace_failed hbecomes]
      rfl
  | ok u =>
      rw [hr] at hbecomes
      have hswept : Swept (block? form) (replaceBlock inner ctx form) [t] [u] _ (mark 1) :=
        .found hfind print_block_pos hbecomes
      exact hswept.run_all

theorem forms (h : Inside ctx index path path' t form form' before body) :
    (form = .ifHolds ∧ form' = .each) ∨ (form = .unlessHolds ∧ form' = .each)
      ∨ (form = .unlessHolds ∧ form' = .ifHolds) := by
  have hlater := h.later
  revert hlater
  cases form <;> cases form' <;> decide

/-- What follows on the second of the two passes finds a mark only. -/
theorem second_bind (h : Inside ctx index path path' t form form' before body) {tail : Text → Pass Text}
    (htail : ∀ u, (tail (mark 1)).run [t, u] = .ok (mark 1, [t, u])) :
    (replace (replaceBlock inner ctx form)
      (scan (block? form) (print [.block form path (before ++ [.text (mark 0)])])) >>= tail).run [t]
        = (inner ctx (print (before ++ [.text (mark 0)]))).map fun u => (mark 1, [t, u]) := by
  have hsecond : (replace (replaceBlock inner ctx form) _).run [t] = _ := h.second
  cases hr : inner ctx (print (before ++ [.text (mark 0)])) with
  | error e =>
      rw [hr] at hsecond
      exact run_bind_of_error hsecond
  | ok u =>
      rw [hr] at hsecond
      exact (run_bind_of_ok hsecond).trans (htail u)

/-- All passes together leave the mark of what the body of the outer block is rendered to. -/
theorem passes_eq (h : Inside ctx index path path' t form form' before body) (hinner : RightBelow n inner)
    (hn : (print body).count (.char '{') < n) :
    (passes inner ctx (print [.block form path (before ++ [.block form' path' body])])).run []
      = (inner ctx (print (before ++ [.text (mark 0)]))).map fun u => (mark 1, [t, u]) := by
  have hfirst := h.first hinner hn
  have hvalues : ∀ u, (replace (replaceValue ctx) (scan substitution? (mark 1))).run [t, u]
      = .ok (mark 1, [t, u]) := fun u => (swept_mark (replaceValue ctx)).run_all
  have htold := h.told
  rcases h.forms with ⟨rfl, rfl⟩ | ⟨rfl, rfl⟩ | ⟨rfl, rfl⟩
  · refine (run_bind_of_ok hfirst).trans (h.second_bind fun u => ?_)
    have hmark : proper (without .unlessHolds fun _ => true) false [.text (mark 1)] = true := proper_mark
    have hskips := pass_skips (replaceBlock inner ctx .unlessHolds) [t, u] hmark
    rw [print_singleton] at hskips
    exact (run_bind_of_ok hskips).trans (hvalues u)
  · have hheld : proper (without .ifHolds fun _ => true) false
        [.block .unlessHolds path (before ++ [.text (mark 0)])] = true :=
      proper_cons_iff.2 ⟨h.proper_held rfl, rfl⟩
    have hskips := pass_skips (replaceBlock inner ctx .ifHolds) [t] hheld
    exact (run_bind_of_ok hfirst).trans ((run_bind_of_ok hskips).trans (h.second_bind hvalues))
  · have hnone : proper (without .each fun _ => true) false
        [.block .unlessHolds path (before ++ [.block .ifHolds path' body])] = true := by
      refine proper_cons_iff.2 ⟨Part.proper_mono (fun form₁ h₁ => without_iff.2 ⟨rfl, ?_⟩) htold, rfl⟩
      rintro rfl
      cases h₁
    have hskips := pass_skips (replaceBlock inner ctx .each) [] hnone
    exact (run_bind_of_ok hskips).trans ((run_bind_of_ok hfirst).trans (h.second_bind hvalues))

/-- A template with a block inside a block of a later pass becomes what the body of the outer block is
rendered to, with a mark in the place of the inner block. -/
theorem render_eq (h : Inside ctx index path path' t form form' before body) :
    ∃ depth, render ctx (print [.block form path (before ++ [.block form' path' body])])
      = renderDepth depth ctx (print (before ++ [.text (mark 0)])) := by
  have hcount : (print body).count (.char '{') < (Part.block form' path' body).print.count (.char '{') :=
    count_body_lt
  have hcount' : (print (before ++ [.block form' path' body])).count (.char '{')
      < (Part.block form path (before ++ [.block form' path' body])).print.count (.char '{') := count_body_lt
  rw [print_append, print_singleton, List.count_append] at hcount'
  have hlimit := h.limit
  obtain ⟨depth, hdepth⟩ : ∃ depth,
      (Part.block form path (before ++ [.block form' path' body])).print.count (.char '{') = depth + 1 :=
    ⟨_, (Nat.succ_pred (by omega)).symm⟩
  have hinner : RightBelow (depth + 1) (renderDepth depth) := renderDepth_inOrder depth (by omega)
  refine ⟨depth, ?_⟩
  rw [render, print_singleton, hdepth, renderDepth, renderWith, ← print_singleton,
    h.passes_eq hinner (by omega)]
  cases renderDepth depth ctx (print (before ++ [.text (mark 0)])) with
  | error e => rfl
  | ok u => exact restore_mark (Nat.one_lt_pow (by decide) (by decide))

end Inside

section Inside

variable {ctx : Context} {index path path' t u v : Text} {form form' : BlockForm} {body : List Part}

/-- **A block inside a block of a later pass.** Where both are rendered, rendering fails: the renderer of the
body set nothing aside, and there is the mark of the inner block. -/
theorem render_block_inside (h : Inside ctx index path path' t form form' [] body) :
    render ctx (print [.block form path [.block form' path' body]]) = .error (.noPlaceholder 0) := by
  obtain ⟨depth, hdepth⟩ := h.render_eq
  obtain ⟨inner, hinner⟩ := exists_renderDepth_eq depth
  have hmark : proper (fun _ => false) false [.text (mark 0)] = true := proper_mark
  have hpasses : (passes inner ctx (print [.text (mark 0)])).run [] = .ok (mark 0, []) := by
    rw [passes_of_no_block hmark, print_singleton]
    exact (swept_mark _).run_all
  rw [List.nil_append, List.nil_append] at hdepth
  rw [hdepth, hinner, renderWith_of_passes hpasses]
  exact restore_mark (Nat.pow_pos (by decide))

theorem render_block_inside_each :
    let ctx : Context := [("a", .bool true), ("xs", .list [.text "x"])]
    let ps : List Part := [.block .ifHolds "a" [.block .each "xs" [.value "this"]]]
    proper (fun _ => true) false ps = true ∧ evaluate ctx [] ps = .ok "x"
      ∧ render ctx (print ps) = .error (.noPlaceholder 0) := by
  intro ctx ps
  have hinside : Inside ctx [] "a" "xs" "x" .ifHolds .each [] [.value "this"] :=
    ⟨by decide, by decide +kernel, rfl, by decide +kernel, rfl, rfl, rfl, le_pow_digitLimit (by decide +kernel)⟩
  exact ⟨by decide +kernel, rfl, render_block_inside hinside⟩

/-- **A block behind a value, inside a block of a later pass.** The value stands in the place of the block:
the renderer of the body set it aside under the number of the mark of the block. -/
theorem render_value_inside (h : Inside ctx index path path' t form form' [.value v] body)
    (hv : valueText (resolve ctx v) = .ok u) :
    render ctx (print [.block form path [.value v, .block form' path' body]]) = .ok (u.escape ++ u.escape) := by
  obtain ⟨depth, hdepth⟩ := h.render_eq
  obtain ⟨inner, hinner⟩ := exists_renderDepth_eq depth
  have hname : isName v = true := (proper_cons_iff.1 h.plain).1
  have hplain : proper (fun _ => false) false [.value v, .text (mark 0)] = true :=
    proper_cons_iff.2 ⟨hname, proper_mark⟩
  have hfound : Found substitution? (replaceValue ctx) ctx index (.value v) ⟨v, true⟩ := found_value hname
  have hpos : 0 < (Part.value v).print.length := Nat.lt_of_lt_of_le hfound.braces List.count_le_length
  have hrun : (replaceValue ctx ⟨v, true⟩).run [] = .ok (mark 0, [] ++ [u.escape]) := by
    rw [replaceValue, hv]
    rfl
  have hswept : Swept substitution? (replaceValue ctx) [] [u.escape] (print [.value v, .text (mark 0)])
      (mark 0 ++ mark 0) := by
    rw [print, print_singleton]
    exact (Swept.found hfound.finds hpos hrun).append (swept_mark _)
  have hpasses : (passes inner ctx (print [.value v, .text (mark 0)])).run []
      = .ok (mark 0 ++ mark 0, [u.escape]) := by
    rw [passes_of_no_block hplain]
    exact hswept.run_all
  have hclosed : Closed [u.escape] [.mark 0, .mark 0] := by
    intro n hn
    simp at hn
    simp [hn]
  have hrestore : restore [u.escape] (printPieces [.mark 0, .mark 0])
      = meaning ctx index [u.escape] [.mark 0, .mark 0] :=
    restore_printPieces (by simp [Piece.Done]) hclosed (Nat.one_le_pow _ _ (by decide))
  have hprint : printPieces [.mark 0, .mark 0] = mark 0 ++ mark 0 := by simp [printPieces, Piece.print]
  have hmeaning : meaning ctx index [u.escape] [.mark 0, .mark 0] = .ok (u.escape ++ (u.escape ++ [])) := rfl
  rw [hprint, hmeaning, List.append_nil] at hrestore
  rw [List.singleton_append, List.singleton_append] at hdepth
  rw [hdepth, hinner, renderWith_of_passes hpasses, hrestore]

end Inside

/-! ## Closing tags of inner blocks -/

section Closing

variable {form : BlockForm} {path path' : Text} {before body after : List Part} {allowed : BlockForm → Bool}
  {inEach inEach' : Bool}

/-- **A block inside one of its own form.** Its closing tag ends the outer block: the body of that one goes
up to there, and what stands behind, with the closing tag of the outer block, is not in it. -/
theorem block?_nested (hpath : isPath path = true) (hpath' : isPath path' = true)
    (hbefore : proper (without form allowed) inEach before = true)
    (hbody : proper (without form allowed) inEach' body = true) (rest : Text) :
    block? form ((Part.block form path (before ++ .block form path' body :: after)).print ++ rest)
      = some (⟨path, print before ++ (form.openTag ++ [.char ' '] ++ path' ++ closing) ++ print body⟩,
        print after ++ (form.closeTag ++ rest)) := by
  have hforeign : ∀ {ps inEach}, proper (without form allowed) inEach ps = true →
      Skips (Text.dropPrefix? form.closeTag) (print ps) := by
    intro ps inEach hps
    have hskips := skips_print (foreign_closeTag without_self) hps
    simpa [BlockForm.closeTag] using hskips
  have hopen : Skips (Text.dropPrefix? form.closeTag) (form.openTag ++ [.char ' '] ++ path' ++ closing) := by
    have hskips : Skips (Text.dropPrefix? (opening ++ .char '/' :: (form.word ++ closing)))
        (form.openTag ++ [.char ' '] ++ path' ++ closing) := skips_openTag hpath' fun _ => rfl
    simpa [BlockForm.closeTag] using hskips
  have hskips := ((hforeign hbefore).append hopen).append (hforeign hbody)
  have hfind := block?_print hpath hskips (print after ++ (form.closeTag ++ rest))
  simpa [Part.print, print_append, print] using hfind

end Closing

end RecordStore.Template
