import RecordStore.Payload.Pages
import RecordStore.Proofs.Markup
import RecordStore.Proofs.Procedure
import RecordStore.Proofs.References
import RecordStore.Proofs.Template.Render
import RecordStore.Proofs.Template.Skeleton

/-!
# RecordStore.Proofs.Pages

What stored data can change in the bundled pages.  A form is a skeleton that the sort of the body and
`isForUpdate` determine, and a page one that the sort of the body determines and whether there is a context
and a deferral.  Data stand in the holes only, as texts that cannot open or close a tag or end an attribute
and that are read as the data.
-/

namespace RecordStore

open Template (Context Fills Skeleton Substitution Value)
open Procedure (yields_report_bind_iff)

/-! ## Bundled templates -/

namespace Template

/-- The bundled templates hold no `each`, and blocks of the other forms only as the renderer follows
them; and the marks of all that is in them can be numbered. -/
theorem supported_bundled : ∀ e ∈ bundled, supported 2 false e.2 = true
    ∧ (print e.2).count (.char '{') ≤ Json.digitLimit := by
  decide +kernel

/-- A bundled template renders to its skeleton in the context. -/
theorem render_bundled {view : View} {name : Text} {ps : List Part} (hview : view = .bundled)
    (hname : bundled.lookup name = some ps) (ctx : Context) :
    view.render name ctx = (skeleton (fun path => (resolve ctx path).truthy) ps).evaluate ctx := by
  obtain ⟨before, after, hsplit, -⟩ := List.lookup_eq_some_iff.1 hname
  have hmem : (name, ps) ∈ bundled := by simp [hsplit]
  obtain ⟨hsupported, hcount⟩ := supported_bundled _ hmem
  have hlimit : (print ps).count (.char '{') ≤ 10 ^ Json.digitLimit :=
    Nat.le_trans hcount (Nat.le_of_lt (Nat.lt_pow_self (by decide)))
  have hrender := renderDepth_print _ hlimit ctx [] ps (supported_mono (by decide) hsupported)
    (Nat.lt_succ_self _)
  have hskeleton : evaluate ctx [] ps = _ := evaluate_skeleton (Nat.le_refl 2) hsupported
  rw [← hskeleton, ← hrender, hview, View.render, View.template, hname]
  rfl

end Template

/-! ## What is shown -/

/-- Whether a body is a task. -/
def Body.isTask : Body → Bool
  | .page _ => false
  | .task _ => true

/-- The text of a body. -/
def Body.text : Body → Text
  | .page p => p.text
  | .task t => t.text

/-- Whether a body has a context to show. -/
def Body.hasContext : Body → Bool
  | .page _ => false
  | .task t => !t.context.isEmpty

/-- Whether a body has a deferral to show. -/
def Body.hasDeferral : Body → Bool
  | .page _ => false
  | .task t => t.deferredUntil.isSome

namespace Payload

/-- The form for a body, before anything is put in. -/
def formSkeleton (isTask isForUpdate : Bool) : Skeleton :=
  Template.skeleton (fun _ => isForUpdate) (if isTask then Template.newTask else Template.newPage)

/-- The page for a body, before anything is put in. -/
def pageSkeleton (isTask hasContext hasDeferral : Bool) : Skeleton :=
  Template.skeleton (fun path => if path = "context" then hasContext else hasDeferral)
    (if isTask then Template.showTask else Template.showPage)

/-- A deferral as pages show it. -/
def deferralText (d : Option Date) : Text := (d.map Date.text).getD []

/-- A truth value as pages show it. -/
def flagText (b : Bool) : Text := if b then "true" else "false"

/-- What the form for a body shows, by the names in its template. -/
def formValues (h : Header) : Body → List (Text × Text)
  | .page p => [("base.kind", h.kind.name), ("base.ident", h.ident),
      ("base.revision", (Value.ofJson h.revisionJson).shown), ("data.name", p.name),
      ("broken_text", p.text.unifyBreaks)]
  | .task t => [("base.kind", h.kind.name), ("base.ident", h.ident),
      ("base.revision", (Value.ofJson h.revisionJson).shown), ("data.name", t.name),
      ("data.context", t.context), ("data.deferred_until", deferralText t.deferredUntil),
      ("broken_text", t.text.unifyBreaks)]

/-- What every page shows of the header, by the names in its template. -/
def pageHeaderValues (h : Header) : List (Text × Text) := [
  ("base.kind", h.kind.name), ("base.ident", h.ident),
  ("base.revision", (Value.ofJson h.revisionJson).shown),
  ("base.modified_at", (h.modifiedAt.map Timestamp.text).getD []),
  ("base.updated_by", (authorValue h.updatedBy).shown)]

/-- What the page of a payload shows, by the names in its template, the text apart. -/
def pageValues (h : Header) (today : Date) (p : Payload) : List (Text × Text) :=
  match p.body with
  | .page b => ("name", b.name) :: pageHeaderValues h
  | .task t => ("name", t.name) :: ("context", t.context) :: ("status", t.status.label) ::
      ("is_open", flagText p.isOpen) :: ("is_ready", flagText (p.isReady today)) ::
      ("deferred_until", deferralText t.deferredUntil) :: pageHeaderValues h

/-- Whether the revision can be shown: a number with too many digits cannot. -/
def RevisionFits (h : Header) : Prop := (Value.ofJson h.revisionJson).digitsWithin Json.digitLimit = true

/-- Whether the author of the last change can be shown; a name always can. -/
def AuthorFits (h : Header) : Prop := (authorValue h.updatedBy).digitsWithin Json.digitLimit = true

/-- A hole is filled with what stands for its value. -/
def ShowsValue (values : List (Text × Text)) (hole : Substitution) (t : Text) : Prop :=
  ∃ v, values.lookup hole.path = some v ∧ Text.Shows v t

/-- A hole of a page is filled with what stands for its value, and the hole for a text with its markup. -/
def ShowsValueOrMarkup (text : Text) (values : List (Text × Text)) (hole : Substitution) (t : Text) :
    Prop :=
  if hole.path = "rendered_text" then t = text.markup ∧ Text.IsMarkup t else ShowsValue values hole t

/-! ## Holes -/

section Holes

variable {h : Header} {s : Surroundings} {ctx : Context} {values : List (Text × Text)}
  {path text v : Text}

/-- A hole can be filled in a context. -/
def Fillable (ctx : Context) (P : Substitution → Text → Prop) (hole : Substitution) : Prop :=
  ∃ t, hole.text ctx = .ok t ∧ P hole t

theorem RevisionFits.valueText (hfits : RevisionFits h) :
    Template.valueText (Value.ofJson h.revisionJson) = .ok (Value.ofJson h.revisionJson).shown :=
  if_pos hfits

theorem AuthorFits.valueText (hfits : AuthorFits h) :
    Template.valueText (authorValue h.updatedBy) = .ok (authorValue h.updatedBy).shown :=
  if_pos hfits

theorem fillable_escaped (hvalue : Template.valueText (Template.resolve ctx path) = .ok v)
    (hlookup : values.lookup path = some v) : Fillable ctx (ShowsValue values) ⟨path, true⟩ := by
  exact ⟨v.escape, Substitution.text_of_ok hvalue, v, hlookup, Text.shows_escape v⟩

theorem fillable_plain (hvalue : Template.valueText (Template.resolve ctx path) = .ok v)
    (hlookup : values.lookup path = some v) (hne : path ≠ "rendered_text") :
    Fillable ctx (ShowsValueOrMarkup text values) ⟨path, true⟩ := by
  obtain ⟨t, ht, hshows⟩ := fillable_escaped hvalue hlookup
  refine ⟨t, ht, ?_⟩
  rw [ShowsValueOrMarkup, if_neg hne]
  exact hshows

theorem fillable_markup
    (hvalue : Template.valueText (Template.resolve ctx "rendered_text") = .ok text.markup) :
    Fillable ctx (ShowsValueOrMarkup text values) ⟨"rendered_text", false⟩ := by
  refine ⟨text.markup, Substitution.text_of_ok hvalue, ?_⟩
  rw [ShowsValueOrMarkup, if_pos rfl]
  exact ⟨rfl, Text.isMarkup_markup text⟩

theorem holes_formSkeleton (isTask isForUpdate : Bool) : (formSkeleton isTask isForUpdate).holes =
    [⟨"base.kind", true⟩, ⟨"base.ident", true⟩]
      ++ (if isForUpdate then [⟨"base.revision", true⟩] else []) ++ [⟨"data.name", true⟩]
      ++ (if isTask then [⟨"data.context", true⟩, ⟨"data.deferred_until", true⟩] else [])
      ++ [⟨"broken_text", false⟩] := by
  cases isTask <;> cases isForUpdate <;> rfl

theorem holes_pageSkeleton (isTask hasContext hasDeferral : Bool) :
    (pageSkeleton isTask hasContext hasDeferral).holes =
    [⟨"base.kind", true⟩, ⟨"base.ident", true⟩]
      ++ (if isTask then [⟨"is_open", true⟩, ⟨"is_ready", true⟩] else []) ++ [⟨"name", true⟩]
      ++ (if isTask then [⟨"status", true⟩] ++ (if hasContext then [⟨"context", true⟩] else [])
          ++ (if hasDeferral then [⟨"deferred_until", true⟩] else []) else [])
      ++ [⟨"rendered_text", false⟩, ⟨"base.revision", true⟩, ⟨"base.modified_at", true⟩,
        ⟨"base.updated_by", true⟩] := by
  cases isTask <;> cases hasContext <;> cases hasDeferral <;> rfl

theorem forall_mem_ite {α : Type} {P : α → Prop} {c : Bool} {a : α} (ha : c = true → P a) :
    ∀ x ∈ (if c then [a] else []), P x := by
  cases c with
  | false => simp
  | true => simpa using ha rfl

/-- The form shows the values of the body in all its holes. -/
theorem fillable_form (b : Body) {u : Bool} (hfits : u = true → RevisionFits h) :
    ∀ hole ∈ (formSkeleton b.isTask u).holes,
      Fillable (formContext h (.bool u) s b) (ShowsValue (formValues h b)) hole := by
  have hrevision : ∀ hole ∈ (if u then [⟨"base.revision", true⟩] else []),
      Fillable (formContext h (.bool u) s b) (ShowsValue (formValues h b)) hole := by
    refine forall_mem_ite fun hu => ?_
    cases b <;> exact fillable_escaped (hfits hu).valueText rfl
  rw [holes_formSkeleton]
  simp only [List.forall_mem_append, List.forall_mem_singleton, List.forall_mem_cons]
  cases b with
  | page b =>
      refine ⟨⟨⟨⟨⟨?_, ?_⟩, hrevision⟩, ?_⟩, nofun⟩, ?_⟩
      · exact fillable_escaped rfl rfl
      · exact fillable_escaped rfl rfl
      · exact fillable_escaped rfl rfl
      · exact ⟨_, rfl, _, rfl, Text.shows_forAttribute _⟩
  | task t =>
      refine ⟨⟨⟨⟨⟨?_, ?_⟩, hrevision⟩, ?_⟩, ?_⟩, ?_⟩
      · exact fillable_escaped rfl rfl
      · exact fillable_escaped rfl rfl
      · exact fillable_escaped rfl rfl
      · exact List.forall_mem_cons.2 ⟨fillable_escaped rfl rfl,
          List.forall_mem_singleton.2 (fillable_escaped rfl rfl)⟩
      · exact ⟨_, rfl, _, rfl, Text.shows_forAttribute _⟩

/-- The page shows the values of the payload in all its holes. -/
theorem fillable_page (hmarkup : s.markup = Text.markup) (p : Payload) (hrevision : RevisionFits h)
    (hauthor : AuthorFits h) :
    ∀ hole ∈ (pageSkeleton p.body.isTask p.body.hasContext p.body.hasDeferral).holes,
      Fillable (pageContext h s p) (ShowsValueOrMarkup p.body.text (pageValues h s.today p)) hole := by
  have hmark : ∀ t, Template.valueText (.text (s.markup t)) = .ok t.markup := fun t => by
    rw [hmarkup]
    rfl
  obtain ⟨kind, b, extras⟩ := p
  rw [holes_pageSkeleton]
  simp only [List.forall_mem_append, List.forall_mem_singleton, List.forall_mem_cons]
  cases b with
  | page b =>
      refine ⟨⟨⟨⟨⟨?_, ?_⟩, nofun⟩, ?_⟩, nofun⟩, ?_, ?_, ?_, ?_⟩
      · exact fillable_plain rfl rfl (by decide)
      · exact fillable_plain rfl rfl (by decide)
      · exact fillable_plain rfl rfl (by decide)
      · exact fillable_markup (hmark b.text)
      · exact fillable_plain hrevision.valueText rfl (by decide)
      · exact fillable_plain rfl rfl (by decide)
      · exact fillable_plain hauthor.valueText rfl (by decide)
  | task t =>
      refine ⟨⟨⟨⟨⟨?_, ?_⟩, ?_⟩, ?_⟩, ?_⟩, ?_, ?_, ?_, ?_⟩
      · exact fillable_plain rfl rfl (by decide)
      · exact fillable_plain rfl rfl (by decide)
      · exact List.forall_mem_cons.2 ⟨fillable_plain rfl rfl (by decide),
          List.forall_mem_singleton.2 (fillable_plain rfl rfl (by decide))⟩
      · exact fillable_plain rfl rfl (by decide)
      · simp only [Body.isTask, if_true, List.forall_mem_append, List.forall_mem_singleton]
        refine ⟨⟨fillable_plain rfl rfl (by decide), ?_⟩, ?_⟩
        · refine forall_mem_ite fun _ => ?_
          exact fillable_plain rfl rfl (by decide)
        · refine forall_mem_ite fun _ => ?_
          exact fillable_plain rfl rfl (by decide)
      · exact fillable_markup (hmark t.text)
      · exact fillable_plain hrevision.valueText rfl (by decide)
      · exact fillable_plain rfl rfl (by decide)
      · exact fillable_plain hauthor.valueText rfl (by decide)

/-! ## Conditions -/

theorem truthy_dateValue (d : Option Date) : (dateValue d).truthy = d.isSome := by
  cases d with
  | none => rfl
  | some d => simp [dateValue, Value.truthy, Date.text, Date.chars, Text.ofChars]

theorem skeleton_form (b : Body) (u : Bool) :
    Template.skeleton (fun path => (Template.resolve (formContext h (.bool u) s b) path).truthy)
      (if b.isTask then Template.newTask else Template.newPage) = formSkeleton b.isTask u := by
  cases b <;> rfl

theorem skeleton_page (p : Payload) :
    Template.skeleton (fun path => (Template.resolve (pageContext h s p) path).truthy)
      (if p.body.isTask then Template.showTask else Template.showPage)
      = pageSkeleton p.body.isTask p.body.hasContext p.body.hasDeferral := by
  obtain ⟨kind, b, extras⟩ := p
  cases b with
  | page b => rfl
  | task t =>
      refine Template.skeleton_congr fun path hpath => ?_
      have hconditions : Template.conditions Template.showTask
          = [Text.ofString "context", Text.ofString "deferred_until"] := rfl
      simp only [Body.isTask, if_true, hconditions, List.mem_cons, List.not_mem_nil, or_false] at hpath
      rcases hpath with rfl | rfl
      · rfl
      · exact truthy_dateValue t.deferredUntil

end Holes

/-! ## Forms and pages -/

section Pages

variable {h : Header} {s : Surroundings} {p : Payload} {u : Bool}

theorem yields_answer {x y : Except Failure Text} (h : x = y) (build : Text → Response) :
    (Procedure.ofExcept x >>= fun content => pure (build content) : Traced Response).Yields ()
      (y.map build) () := by
  rw [h]
  cases y <;> exact ⟨rfl, rfl⟩

/-- The form is its skeleton in its context. -/
theorem editForm_yields (hview : s.view = .bundled) : ∃ r : Response,
    (p.editForm h (.bool u) s).Yields ()
      (((formSkeleton p.body.isTask u).evaluate (formContext h (.bool u) s p.body)).map
        (r.addTag "content")) () := by
  rw [← skeleton_form (h := h) (s := s)]
  obtain ⟨kind, b, extras⟩ := p
  cases b with
  | page b =>
      refine ⟨Response.clearErrors ["name-error"] {}, yields_report_bind_iff.2 (yields_answer ?_ _)⟩
      exact Template.render_bundled hview rfl _
  | task t =>
      refine ⟨Response.clearErrors ["name-error", "deferred-error"] {}, yields_answer ?_ _⟩
      exact Template.render_bundled hview rfl _

/-- The page is its skeleton in its context. -/
theorem showPage_yields (hview : s.view = .bundled) : (p.showPage h s).Yields ()
    (((pageSkeleton p.body.isTask p.body.hasContext p.body.hasDeferral).evaluate (pageContext h s p)).map
      fun content => Response.addTag "content" content {}) () := by
  rw [← skeleton_page (h := h) (s := s)]
  obtain ⟨kind, b, extras⟩ := p
  cases b with
  | page b => exact yields_answer (Template.render_bundled hview rfl _) _
  | task t => exact yields_answer (Template.render_bundled hview rfl _) _

/-- A step answers with a content of a sort; or it fails, because a number that it shows is too long. -/
def Delivers (x : Traced Response) (fits : Prop) (P : Text → Prop) : Prop :=
  (fits → ∃ answer content, x.Yields () (.ok answer) () ∧ answer.tag? "content" = some content
      ∧ P content)
    ∧ (¬ fits → x.Yields () (.error .longInteger) ())

theorem delivers_fills {x : Traced Response} {fits : Prop} {P : Substitution → Text → Prop}
    {k : Skeleton} {ctx : Context} {r : Response}
    (hx : x.Yields () ((k.evaluate ctx).map fun content => r.addTag "content" content) ())
    (hfits : fits → ∀ hole ∈ k.holes, Fillable ctx P hole)
    (hnot : ¬ fits → ∃ hole ∈ k.holes, hole.text ctx = .error .longInteger) :
    Delivers x fits (Fills k P) := by
  constructor
  · intro hf
    obtain ⟨content, hcontent, hfills⟩ := Skeleton.evaluate_fills (hfits hf)
    rw [hcontent] at hx
    exact ⟨_, content, hx, by rw [Response.tag?_addTag, if_pos rfl], hfills⟩
  · intro hf
    obtain ⟨hole, hmem, hlong⟩ := hnot hf
    rw [Skeleton.evaluate_eq_error hmem hlong] at hx
    exact hx

/-- The form does not show a revision with too many digits. -/
theorem form_too_long (hnot : ¬ (u = true → RevisionFits h)) :
    ∃ hole ∈ (formSkeleton p.body.isTask u).holes,
      hole.text (formContext h (.bool u) s p.body) = .error .longInteger := by
  obtain ⟨rfl, hlong⟩ := Classical.not_imp.1 hnot
  refine ⟨⟨"base.revision", true⟩, by simp [holes_formSkeleton], ?_⟩
  have hvalue : Template.valueText (Value.ofJson h.revisionJson) = .error .longInteger := if_neg hlong
  cases hb : p.body <;> exact Substitution.text_of_error hvalue

/-- The page shows neither a revision nor an author with a number of too many digits. -/
theorem page_too_long (hnot : ¬ (RevisionFits h ∧ AuthorFits h)) :
    ∃ hole ∈ (pageSkeleton p.body.isTask p.body.hasContext p.body.hasDeferral).holes,
      hole.text (pageContext h s p) = .error .longInteger := by
  obtain ⟨kind, b, extras⟩ := p
  rcases Classical.not_and_iff_not_or_not.1 hnot with hlong | hlong
  · refine ⟨⟨"base.revision", true⟩, by simp [holes_pageSkeleton], ?_⟩
    have hvalue : Template.valueText (Value.ofJson h.revisionJson) = .error .longInteger := if_neg hlong
    cases b <;> exact Substitution.text_of_error hvalue
  · refine ⟨⟨"base.updated_by", true⟩, by simp [holes_pageSkeleton], ?_⟩
    have hvalue : Template.valueText (authorValue h.updatedBy) = .error .longInteger := if_neg hlong
    cases b <;> exact Substitution.text_of_error hvalue

/-- **Stored data cannot change the structure of a page.** Where the bundled templates and markup are used,
the form for a payload is the skeleton that the sort of its body and `isForUpdate` determine, and the page
that shows it the skeleton that the sort of its body determines and whether it has a context and a deferral.
A hole is filled with a text that can neither open or close a tag nor end an attribute and that is read as
the value of the hole: for the text in a form, this is the text with its line breaks unified.  The one hole
of a page that holds the text has no other markup than the tags of paragraphs and line breaks.

There is no form or page where a number that it shows has more digits than a number can be written with. -/
theorem pages_keep_structure (h : Header) (p : Payload) (isForUpdate : Bool) (s : Surroundings)
    (hview : s.view = .bundled) (hmarkup : s.markup = Text.markup) :
    Delivers (p.editForm h (.bool isForUpdate) s) (isForUpdate = true → RevisionFits h)
        (Fills (formSkeleton p.body.isTask isForUpdate) (ShowsValue (formValues h p.body)))
      ∧ Delivers (p.showPage h s) (RevisionFits h ∧ AuthorFits h)
        (Fills (pageSkeleton p.body.isTask p.body.hasContext p.body.hasDeferral)
          (ShowsValueOrMarkup p.body.text (pageValues h s.today p))) := by
  obtain ⟨r, hform⟩ := editForm_yields (h := h) (p := p) (u := isForUpdate) hview
  constructor
  · exact delivers_fills hform (fillable_form p.body) form_too_long
  · exact delivers_fills (showPage_yields hview) (fun hfits => fillable_page hmarkup p hfits.1 hfits.2)
      page_too_long

/-- A task whose texts look like tags, references, marks and conditions. -/
def hostileTask : Payload where
  kind := .task
  body := .task {
    name := "\"><script>\x000\x00\x7b\x7bname\x7d\x7d"
    text := "a\r\n</p>\x7b\x7b#if context\x7d\x7d"
    context := "&lt;&#10;" }

/-- The header of such a task. -/
def hostileHeader : Header :=
  { Header.fresh "' onclick='" .task with revision := .value 3, updatedBy := .value (some "<u>") }

/-- Surroundings with the bundled templates and markup. -/
def plainSurroundings : Surroundings where
  kinds := [.page, .task]
  view := .bundled
  markup := Text.markup
  user := none
  input := []
  today := Date.first

theorem pages_keep_structure_hostile :
    (∃ answer content, (hostileTask.editForm hostileHeader (.bool true) plainSurroundings).Yields ()
        (.ok answer) () ∧ answer.tag? "content" = some content
        ∧ Fills (formSkeleton true true) (ShowsValue (formValues hostileHeader hostileTask.body)) content)
      ∧ ∃ answer content, (hostileTask.showPage hostileHeader plainSurroundings).Yields () (.ok answer) ()
        ∧ answer.tag? "content" = some content
        ∧ Fills (pageSkeleton true true false) (ShowsValueOrMarkup "a\r\n</p>\x7b\x7b#if context\x7d\x7d"
          (pageValues hostileHeader Date.first hostileTask)) content := by
  have hpages := pages_keep_structure hostileHeader hostileTask true plainSurroundings rfl rfl
  exact ⟨hpages.1.1 fun _ => rfl, hpages.2.1 ⟨rfl, rfl⟩⟩

end Pages

end Payload

end RecordStore
