import RecordStore.Proofs.Template.Blocks

/-!
# RecordStore.Proofs.Template.Render

Rendering a printed template gives what the template means (`render_print`, and `renderDepth_inOrder` for
any nesting of blocks in which no pass gets in the way of another).

After the passes for `each`, `if` and `unless` no block is left, and after the pass for values nothing but
texts and marks, so no pass meets the tags of a text that was set aside by an earlier one.
-/

namespace RecordStore.Template

section Render

variable {inner : Context → Text → Except Failure Text} {ctx : Context} {index path : Text} {n rank : Nat}
  {aside : List Text} {hs : List Piece} {ps : List Part}

/-! ## Values -/

/-- A value is set aside, escaped or as it is. -/
theorem found_value (h : isName path = true) :
    Found substitution? (replaceValue ctx) ctx index (.value path) ⟨path, true⟩ := by
  refine ⟨fun rest => ?_, ?_, .inr (funext fun aside => ?_)⟩
  · have hfind := substitution?_value h rest
    simpa [Part.print] using hfind
  · simp only [Part.print, List.count_append]
    have htag : opening.count (.char '{') = 2 := by decide
    omega
  · rw [Part.evaluate, replaceValue]
    cases valueText (resolve ctx path) <;> rfl

theorem found_raw (h : isName path = true) :
    Found substitution? (replaceValue ctx) ctx index (.raw path) ⟨path, false⟩ := by
  refine ⟨fun rest => ?_, ?_, .inr (funext fun aside => ?_)⟩
  · have hfind := substitution?_raw h rest
    simpa [Part.print] using hfind
  · simp only [Part.print, List.count_append]
    have htag : opening.count (.char '{') = 2 := by decide
    omega
  · rw [Part.evaluate, replaceValue]
    cases valueText (resolve ctx path) <;> rfl

theorem substitution?_eq_none {t : Text} (h : t.head? ≠ some (.char '{')) : substitution? t = none := by
  have hraw : Text.dropPrefix? (opening ++ [.char '{']) t = none := dropPrefix?_eq_none h
  have hescaped : Text.dropPrefix? opening t = none := dropPrefix?_eq_none h
  unfold substitution?
  rw [hraw, hescaped]
  rfl

/-- **The pass for values** leaves nothing to be rendered, where there are no blocks. -/
theorem leaves_values {allowed : BlockForm → Bool} (hnone : ∀ form, allowed form = false)
    (hs_within : ∀ h ∈ hs, h.Within ctx index allowed n) (hc : Closed aside hs) :
    Leaves ctx index Piece.Done aside hs
      ((replace (replaceValue ctx) (scan substitution? (printPieces hs))).run aside) := by
  refine leaves_replace (fun k => trivial) hc fun h hh => ?_
  have hw := hs_within h hh
  have hkeep : h.Done → Skips substitution? h.print → ∀ aside, Closed aside [h] → ∃ more hs',
      Swept substitution? (replaceValue ctx) aside more h.print (printPieces hs')
        ∧ Turned ctx index Piece.Done aside more h hs' := by
    intro hdone hskips aside hc
    have hprint : printPieces [h] = h.print := List.append_nil _
    refine ⟨[], [h], ?_, .keep hdone hc⟩
    rw [hprint]
    exact .skip hskips
  cases h with
  | mark k => exact .inl (hkeep trivial (skips_mark (fun t => substitution?_eq_none) k))
  | part p =>
      cases p with
      | text t =>
          have hbrace : Glyph.char '{' ∉ t := all_ne_iff.1 hw.1
          have hmark : markEnd ∉ t := Part.inOrder_text_iff.1 hw.2.1 rfl
          refine .inl (hkeep ⟨t, rfl, List.all_eq_true.2 fun g hg => ?_⟩
            (skips_of_not_mem _ (fun t => substitution?_eq_none) hbrace))
          rw [isPlainGlyph, Bool.and_eq_true, decide_eq_true_eq, decide_eq_true_eq]
          exact ⟨fun h => hbrace (h ▸ hg), fun h => hmark (h ▸ hg)⟩
      | value path => exact .inr ⟨_, _, rfl, found_value hw.1⟩
      | raw path => exact .inr ⟨_, _, rfl, found_raw hw.1⟩
      | index => cases hw.1
      | block form path body => cases (hnone form).symm.trans (Part.proper_block_iff.1 hw.1).1

/-! ## Rendering -/

/-- All passes, one after the other, leave nothing to be rendered. -/
theorem leaves_passes (hinner : RightBelow n inner)
    (hs_within : ∀ h ∈ hs, h.Within ctx index (fun _ => true) n) (hc : Closed aside hs) :
    Leaves ctx index Piece.Done aside hs ((passes inner ctx (printPieces hs)).run aside) := by
  refine .bind (leaves_blocks .each hinner ?_ hs_within hc) fun hs aside hs_within hc => ?_
  · exact fun form _ => by cases form <;> decide
  refine .bind (leaves_blocks .ifHolds hinner ?_ hs_within hc) fun hs aside hs_within hc => ?_
  · exact fun form => by cases form <;> decide
  refine .bind (leaves_blocks .unlessHolds hinner ?_ hs_within hc) fun hs aside hs_within hc => ?_
  · exact fun form => by cases form <;> decide
  exact leaves_values (fun form => by cases form <;> rfl) hs_within hc

/-- A renderer that is right on the bodies of a template is right on the template. -/
theorem renderWith_inOrder (hinner : RightBelow n inner) (hps : proper (fun _ => true) false ps = true)
    (horder : inOrder 0 ctx index ps = true) (hn : (print ps).count (.char '{') ≤ n)
    (hlimit : (print ps).count (.char '{') ≤ 10 ^ Json.digitLimit) :
    renderWith inner ctx (print ps) = evaluate ctx index ps := by
  have hclosed : Closed [] (ps.map Piece.part) := fun k hk => by simp at hk
  have hleaves := leaves_passes hinner (within_parts hps horder hn) hclosed
  rw [printPieces_parts] at hleaves
  unfold renderWith
  generalize (passes inner ctx (print ps)).run [] = x at hleaves
  cases hleaves with
  | failed means => rw [← meaning_parts, means]; rfl
  | done hs' more kept closed means size =>
      have hsize : ([] ++ more).length ≤ 10 ^ Json.digitLimit := by
        rw [printPieces_parts] at size
        rw [List.nil_append]
        omega
      rw [← meaning_parts, ← means, ← restore_printPieces kept closed hsize]
      rfl

/-- Rendering to a depth is right on what is in order, where no more braces open than the depth. -/
theorem renderDepth_inOrder (depth : Nat) (hlimit : depth ≤ 10 ^ Json.digitLimit) :
    RightBelow (depth + 1) (renderDepth depth) := by
  induction depth with
  | zero =>
      intro ctx index ps hps horder hn
      have hnone : RightBelow 0 fun _ _ => .ok [] := fun _ _ _ _ _ h => absurd h (Nat.not_lt_zero _)
      exact renderWith_inOrder hnone hps horder (by omega) (by omega)
  | succ depth ih =>
      intro ctx index ps hps horder hn
      exact renderWith_inOrder (ih (by omega)) hps horder (by omega) (by omega)

theorem supported_mono {rank' : Nat} {inEach : Bool} (hle : rank ≤ rank') : ∀ {ps : List Part},
    supported rank inEach ps = true → supported rank' inEach ps = true
  | [], _ => rfl
  | p :: ps, h => by
      rw [supported, Bool.and_eq_true] at h ⊢
      refine ⟨?_, supported_mono hle h.2⟩
      cases p with
      | block form path body =>
          simp only [Part.supported, Bool.and_eq_true, decide_eq_true_eq] at h ⊢
          exact ⟨⟨Nat.le_trans h.1.1.1 hle, h.1.1.2⟩, h.1.2⟩
      | _ => exact h.1

/-- Rendering to a depth is right on what is supported, where no more braces open than the depth. -/
theorem renderDepth_print (depth : Nat) (hlimit : depth ≤ 10 ^ Json.digitLimit) (ctx : Context)
    (index : Text) (ps : List Part) (hps : supported 3 false ps = true)
    (hn : (print ps).count (.char '{') < depth + 1) : renderDepth depth ctx (print ps) = evaluate ctx index ps :=
  renderDepth_inOrder depth hlimit ctx index ps (proper_of_supported (fun _ _ => rfl) hps)
    (inOrder_of_supported ctx index hps) hn

/-- **Rendering.** A printed template renders to what the template means, in every context and whatever
the texts in it are: values are escaped or put in as they are, and no text that is put in is read as a tag
or as a mark.  The position `index` plays no part, since `supported 3 false` has it only inside an `each`,
which gives its own.

The bound on the braces is the one that the reader of marks has: the number of a mark must have no more
digits than any number that is read.  No text that fits in a memory comes near it. -/
theorem render_print (ctx : Context) (index : Text) (ps : List Part) (hps : supported 3 false ps = true)
    (hlimit : (print ps).count (.char '{') ≤ 10 ^ Json.digitLimit) :
    render ctx (print ps) = evaluate ctx index ps :=
  renderDepth_print _ hlimit ctx index ps hps (Nat.lt_succ_self _)

/-- A template with blocks of all forms inside each other. -/
def sampleTemplate : List Part := [
  .block .each "items" [
    .index, .text ":",
    .block .ifHolds "name" [
      .value "name",
      .block .unlessHolds "done" [.text " (", .raw "this.name", .text ")"]],
    .text ";"],
  .raw "name", .block .ifHolds "nothing" [.text "no"], .value "name"]

/-- Texts that look like tags and marks. -/
def sampleContext : Context := [
  ("name", .text "\x000\x00\x7b\x7bitems\x7d\x7d"),
  ("items", .list [
    .dict [("name", .text "\x001\x00"), ("done", .bool true)],
    .dict [("name", .text "<\x7b\x7bname\x7d\x7d>")], .null])]

theorem render_print_sample :
    supported 3 false sampleTemplate = true ∧
      render sampleContext (print sampleTemplate) = .ok (
        Text.ofString "0:\x001\x00;1:&lt;\x7b\x7bname\x7d\x7d&gt; (<\x7b\x7bname\x7d\x7d>);"
          ++ Text.ofString "2:\x000\x00\x7b\x7bitems\x7d\x7d ();"
          ++ Text.ofString "\x000\x00\x7b\x7bitems\x7d\x7d\x000\x00\x7b\x7bitems\x7d\x7d") := by
  have hsupported : supported 3 false sampleTemplate = true := by decide +kernel
  have hcount : (print sampleTemplate).count (.char '{') ≤ Json.digitLimit := by decide +kernel
  have hlimit : (print sampleTemplate).count (.char '{') ≤ 10 ^ Json.digitLimit :=
    Nat.le_trans hcount (Nat.le_of_lt (Nat.lt_pow_self (by decide)))
  exact ⟨hsupported, (render_print sampleContext [] sampleTemplate hsupported hlimit).trans rfl⟩

end Render

end RecordStore.Template
