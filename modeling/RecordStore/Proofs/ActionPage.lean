import RecordStore.Proofs.LineBreak
import RecordStore.Proofs.Pages
import RecordStore.Proofs.Update

/-!
# RecordStore.Proofs.ActionPage

The page that an action answers with, and the page of the item that the action wrote.

An action answers with the page of the item it changed, and the item is stamped and saved only then
(`Dispatch.yields_ok`).  The page of an item ends in a foot with its revision and the time and the author
of its last change, and a stamp changes nothing else of it (`Payload.showPage_stamped`).  So the page that
is shown after an action is that of the answer with another foot (`Dispatch.page_without_stamp`).
-/

namespace RecordStore

open Procedure
open Template (Skeleton Value)

/-! ## Numerals -/

namespace Text

variable {x y s t : Text} {g : Glyph}

/-- Texts before the first mark of the same text are the same. -/
theorem eq_of_append_cons (hx : g ∉ x) (hy : g ∉ y) (h : x ++ g :: s = y ++ g :: t) : x = y := by
  have hbefore : ∀ {x s : Text}, g ∉ x → (x ++ g :: s).takeWhile (· ≠ g) = x := by
    intro x s hx
    rw [List.takeWhile_append_of_pos (by grind), List.takeWhile_cons_of_neg (by simp), List.append_nil]
  rw [← hbefore (s := s) hx, h, hbefore hy]

theorem mem_ofNat {n : Nat} (h : g ∈ ofNat n) : ∃ c : Char, c.isDigit = true ∧ g = .char c := by
  obtain ⟨c, hc, rfl⟩ := List.mem_map.1 h
  exact ⟨c, Nat.isDigit_of_mem_toDigits (by decide) (by decide) hc, rfl⟩

theorem comma_not_mem_ofNat (n : Nat) : Glyph.char ',' ∉ ofNat n := by
  intro h
  obtain ⟨c, hdigit, hc⟩ := mem_ofNat h
  cases hc
  cases hdigit

/-- Digits are not escaped. -/
theorem escape_ofNat (n : Nat) : (ofNat n).escape = ofNat n := by
  have hself : ∀ g ∈ ofNat n, g.escaped = [g] := by
    intro g hg
    obtain ⟨c, hdigit, rfl⟩ := mem_ofNat hg
    unfold Glyph.escaped
    split
    case h_6 => rfl
    all_goals
      next heq => cases heq; cases hdigit
  rw [escape, List.flatMap_congr hself, List.flatMap_singleton']

theorem ofNat_injective : Function.Injective ofNat := by
  intro m n h
  have hdigits : Nat.toDigits 10 m = Nat.toDigits 10 n :=
    List.map_injective_iff.2 (fun a b hab => Glyph.char.inj hab) h
  have hnumber := congrArg (Nat.ofDigitChars 10 · 0) hdigits
  simpa only [Nat.ofDigitChars_ten_toDigits] using hnumber

end Text

/-! ## The foot of a page -/

namespace Payload

/-- The end of a page, behind the text: revision, time and author of the last change. -/
def foot (h : Header) : Text :=
  "</div>\n  <footer>revision " ++ Text.escape (Value.ofJson h.revisionJson).shown
    ++ ", updated " ++ Text.escape ((h.modifiedAt.map Timestamp.text).getD [])
    ++ " by " ++ Text.escape (authorValue h.updatedBy).shown ++ "</footer>\n</article>\n"

/-- The end of a page, before anything is put in. -/
def footSkeleton : Skeleton := Template.skeleton (fun _ => false) (Template.pageFoot.drop 2)

/-- A page, before anything is put in, without its end. -/
def topSkeleton (isTask hasContext hasDeferral : Bool) : Skeleton :=
  let k := pageSkeleton isTask hasContext hasDeferral
  k.take (k.length - footSkeleton.length)

section Foot

variable {h : Header} {s : Surroundings} {p : Payload} {user : Option Text} {now : Timestamp} {path : Text}

theorem pageSkeleton_eq (isTask hasContext hasDeferral : Bool) : pageSkeleton isTask hasContext hasDeferral
    = topSkeleton isTask hasContext hasDeferral ++ footSkeleton := by
  cases isTask <;> cases hasContext <;> cases hasDeferral <;> rfl

/-- The header is one value of the context of a page, and no other depends on it. -/
theorem exists_pageContext (s : Surroundings) (p : Payload) :
    ∃ rest, ∀ h, pageContext h s p = (Text.ofString "base", pageHeader h s) :: rest := by
  obtain ⟨kind, b, extras⟩ := p
  cases b with
  | page b => exact ⟨_, fun _ => rfl⟩
  | task t => exact ⟨_, fun _ => rfl⟩

/-- The foot of a page is put in where its numbers are not too long. -/
theorem evaluate_footSkeleton (hrevision : RevisionFits h) (hauthor : AuthorFits h) :
    footSkeleton.evaluate (pageContext h s p) = .ok (foot h) := by
  obtain ⟨rest, hcontext⟩ := exists_pageContext s p
  have hrev : Template.Substitution.text (pageContext h s p) ⟨"base.revision", true⟩
      = .ok (Text.escape (Value.ofJson h.revisionJson).shown) := by
    rw [hcontext]
    exact Template.Substitution.text_of_ok hrevision.valueText
  have htime : Template.Substitution.text (pageContext h s p) ⟨"base.modified_at", true⟩
      = .ok (Text.escape ((h.modifiedAt.map Timestamp.text).getD [])) := by
    rw [hcontext]
    exact Template.Substitution.text_of_ok rfl
  have hauth : Template.Substitution.text (pageContext h s p) ⟨"base.updated_by", true⟩
      = .ok (Text.escape (authorValue h.updatedBy).shown) := by
    rw [hcontext]
    exact Template.Substitution.text_of_ok hauthor.valueText
  have hshape : footSkeleton = [.inl "</div>\n  <footer>revision ", .inr ⟨"base.revision", true⟩,
      .inl ", updated ", .inr ⟨"base.modified_at", true⟩, .inl " by ", .inr ⟨"base.updated_by", true⟩,
      .inl "</footer>\n</article>\n"] := rfl
  rw [hshape]
  simp only [Skeleton.evaluate_cons, Sum.elim_inl, Sum.elim_inr, hrev, htime, hauth]
  simp [foot, Skeleton.evaluate, Template.joined, bind, Except.bind, pure, Except.pure]

/-- What is shown above the foot of a page: names, and what does not change in a header. -/
def topNames : List Text :=
  ["is_open", "is_ready", "name", "status", "context", "deferred_until", "rendered_text"]

theorem path_of_mem_topSkeleton : ∀ isTask hasContext hasDeferral,
    ∀ hole ∈ (topSkeleton isTask hasContext hasDeferral).holes,
      hole.path ∈ topNames ∨ hole.path = "base.kind" ∨ hole.path = "base.ident" := by
  decide

/-- A name other than that of the header does not depend on the header. -/
theorem resolve_topNames (hpath : path ∈ topNames) (rest : Template.Context) (v v' : Value) :
    Template.resolve ((Text.ofString "base", v) :: rest) path
      = Template.resolve ((Text.ofString "base", v') :: rest) path := by
  have hplain : ∀ path ∈ topNames, Text.splitOn (.char '.') path = [path] ∧ path ≠ "base" := by decide
  obtain ⟨hsplit, hne⟩ := hplain path hpath
  simp only [Template.resolve, hsplit, Template.Context.get?, Ne.symm hne, if_false]

/-- What is shown above the foot of a page is not changed by a stamp. -/
theorem resolve_stamped (hpath : path ∈ topNames ∨ path = "base.kind" ∨ path = "base.ident")
    (h : Header) (s : Surroundings) (p : Payload) (user : Option Text) (now : Timestamp) :
    Template.resolve (pageContext (h.stamped user now) s p) path
      = Template.resolve (pageContext h s p) path := by
  obtain ⟨rest, hcontext⟩ := exists_pageContext s p
  rw [hcontext, hcontext]
  rcases hpath with hpath | rfl | rfl
  · exact resolve_topNames hpath rest _ _
  · have hkind : ∀ h, Template.resolve ((Text.ofString "base", pageHeader h s) :: rest) "base.kind"
        = .kind h.kind := fun _ => rfl
    rw [hkind, hkind]
    rfl
  · have hident : ∀ h, Template.resolve ((Text.ofString "base", pageHeader h s) :: rest) "base.ident"
        = .text h.ident := fun _ => rfl
    rw [hident, hident]
    rfl

theorem evaluate_topSkeleton (h : Header) (s : Surroundings) (p : Payload) (user : Option Text)
    (now : Timestamp) (isTask hasContext hasDeferral : Bool) :
    (topSkeleton isTask hasContext hasDeferral).evaluate (pageContext (h.stamped user now) s p)
      = (topSkeleton isTask hasContext hasDeferral).evaluate (pageContext h s p) := by
  refine Skeleton.evaluate_congr fun hole hhole => ?_
  have hpath := path_of_mem_topSkeleton _ _ _ hole hhole
  rw [Template.Substitution.text, Template.Substitution.text, resolve_stamped hpath]

/-- A page that can be shown consists of what is above its foot and its foot, and stamping the item
changes the foot only. -/
theorem showPage_stamped (hview : s.view = .bundled) {answer : Response}
    (hanswer : (p.showPage h s).Yields () (.ok answer) ()) :
    ∃ top, answer = Response.addTag "content" (top ++ foot h) {}
      ∧ ∀ user now, RevisionFits (h.stamped user now) → (p.showPage (h.stamped user now) s).Yields ()
        (.ok (Response.addTag "content" (top ++ foot (h.stamped user now)) {})) () := by
  have hpage := (hanswer.unique (showPage_yields hview)).1
  have hfits : RevisionFits h ∧ AuthorFits h := by
    by_contra hnot
    obtain ⟨hole, hmem, hlong⟩ := page_too_long (p := p) (s := s) hnot
    rw [Skeleton.evaluate_eq_error hmem hlong] at hpage
    cases hpage
  rw [pageSkeleton_eq, Skeleton.evaluate_append, evaluate_footSkeleton hfits.1 hfits.2] at hpage
  cases htop : (topSkeleton p.body.isTask p.body.hasContext p.body.hasDeferral).evaluate (pageContext h s p) with
  | error e =>
      rw [htop] at hpage
      cases hpage
  | ok top =>
      rw [htop] at hpage
      refine ⟨top, Except.ok.inj hpage, fun user now hrevision => ?_⟩
      have hstamped := showPage_yields (h := h.stamped user now) (p := p) hview
      rwa [pageSkeleton_eq, Skeleton.evaluate_append, evaluate_topSkeleton, htop,
        evaluate_footSkeleton hrevision rfl] at hstamped

/-- The foot of a page changes with every stamp, because the revision does. -/
theorem foot_stamped_ne (r : h.Regular) (user : Option Text) (now : Timestamp) :
    foot (h.stamped user now) ≠ foot h := by
  obtain ⟨n, hn⟩ := Int.eq_ofNat_of_zero_le r.revisionNumber_nonneg
  have hshown : ∀ {h' : Header} {k : Nat}, h'.revision = .value (k : Int) →
      Text.escape (Value.ofJson h'.revisionJson).shown = Text.ofNat k := by
    intro h' k hk
    rw [Header.revisionJson, hk]
    exact Text.escape_ofNat k
  have hold : h.revision = .value (n : Int) := hn ▸ r.revision_eq
  have hnew : (h.stamped user now).revision = .value ((n + 1 : Nat) : Int) := by
    rw [Header.stamped, hn]
    rfl
  intro heq
  simp only [foot, hshown hold, hshown hnew, List.append_assoc, List.append_cancel_left_eq] at heq
  have hdigits := Text.eq_of_append_cons (Text.comma_not_mem_ofNat _) (Text.comma_not_mem_ofNat _) heq
  have hsucc := Text.ofNat_injective hdigits
  omega

end Foot

end Payload

/-! ## Acting -/

section Acting

variable {s s' : Session} {item acted : Item} {ident : Text} {action : TaskAction} {answer : Response}

/-- Handing an item over changes nothing of a session but its repository and the name of the next batch. -/
theorem Store.handOver_session {i : Item} {r : Except Failure Unit}
    (h : (Store.handOver i .update).Yields s r s') : ∃ d n, s' = { s with disk := d, nextBatch := n } := by
  cases hb : i.bytes with
  | error e => exact ⟨s.disk, s.nextBatch, (h.unique (handOver_yields_error hb)).2⟩
  | ok blob =>
      by_cases hready : s.Ready
      · have happly := yields_run (Repository.apply (batchName s.nextBatch)
          (single (.update i.kind.name i.ident blob)).changes) s.disk
        have hflush := flush_yields (l := single (.update i.kind.name i.ident blob)) rfl
          (by simp [single, ChangeList.added]) happly
        exact ⟨_, s.nextBatch + 1, (h.unique (handOver_yields hb rfl hready hflush)).2⟩
      · have hop : Operation.update ≠ .delete := by decide
        obtain ⟨e, he⟩ := handOver_of_not_ready hready hb hop
        exact ⟨s.disk, s.nextBatch, (h.unique he).2⟩

/-- An item can be found in a session only that can be worked with. -/
theorem Store.ready_of_find (h : (Store.find ident).Yields s (.ok item) s) : s.Ready := by
  by_contra hnot
  obtain ⟨e, he⟩ := Session.requireRepository_of_not_ready hnot
  have hfind : (Store.find ident).Yields s (.error e) s := he.bind_error
  cases (h.unique hfind).1

/-- An item is as it is read from a record when its kind is a plain word. -/
theorem Item.eq_recorded_iff {i : Item} : i = i.recorded ↔ i.header.kind = .word i.header.kind.name := by
  rw [← Header.eq_recorded_iff]
  constructor
  · intro h
    exact congrArg Item.header h
  · intro h
    rw [Item.recorded, ← h]

/-- The revision of an item that has bytes can be shown. -/
theorem Item.revisionFits_of_bytes {i : Item} {blob : Bytes} (r : i.Regular) (hb : i.bytes = .ok blob) :
    Payload.RevisionFits i.header := by
  have hshort := (r.bytes_ok_iff.1 ⟨blob, hb⟩).2.revision _ r.header.revision_eq
  rw [Payload.RevisionFits, Header.revisionJson, r.header.revision_eq]
  exact decide_eq_true ((Nat.length_toDigits_le_iff (by decide) (by decide)).2 hshort)

/-- A stored item is found in a session as it was saved. -/
theorem Store.find_of_replaces {i : Item} {blob : Bytes} {d : Disk} (r : i.Regular) (hkind : i = i.recorded)
    (hb : i.bytes = .ok blob) (hready : s.Ready) (hreg : s.registry = .bundled)
    (h : Repository.Replaces d i.ident (i.kind.name, blob) s.disk) :
    (Store.find i.ident).Yields s (.ok i) s := by
  have hdecode := r.decodeItem_bytes hb
  rw [← hreg, ← hkind] at hdecode
  exact find_of_read hready h.self hdecode

/-- What is left of a session when an item was saved in it. -/
structure Saved (s : Session) (i : Item) (s' : Session) : Prop where
  stored : ∃ blob, i.bytes = .ok blob ∧ Repository.Replaces s.disk i.ident (i.kind.name, blob) s'.disk
  found : (Store.find i.ident).Yields s' (.ok i) s'
  ready : s'.Ready
  around : s'.surroundings = s.surroundings

/-- **Saving** an item without a slash in its identifier stamps it and replaces the record of that identifier,
and the item is found from then on as it was stamped. -/
theorem Store.saved_of_save (w : s.disk.WellFormed) (one : Repository.OneFile s.disk)
    (hreg : s.registry = .bundled) (hready : s.Ready) (r : item.Regular) (hrecorded : item = item.recorded)
    (hslash : .char '/' ∉ item.ident) (hnow : s.clock.now.Recordable) {i : Item}
    (h : (Store.save .update).Yields (s, item) (.ok ()) (s', i)) :
    Saved s (item.stamped s.user s.clock.now) s' := by
  have rstamped := (r.stamped s.user hnow).1
  have hkind : item.stamped s.user s.clock.now = (item.stamped s.user s.clock.now).recorded := by
    have hword := Item.eq_recorded_iff.1 hrecorded
    exact Item.eq_recorded_iff.2 hword
  cases hclock : s.clock.advance with
  | error e => cases (h.unique (save_yields_clock hclock)).1
  | ok clock =>
      have hhand := yields_run (handOver (item.stamped s.user s.clock.now) .update) { s with clock }
      obtain ⟨hout, hst⟩ := h.unique (save_yields r hclock hhand)
      obtain ⟨rfl, -⟩ := Prod.mk.inj hst
      rw [← hout] at hhand
      have w' : ({ s with clock } : Session).disk.WellFormed := w
      obtain ⟨blob, hb⟩ := bytes_of_handOver hhand
      obtain ⟨hadmits, happlied⟩ :=
        handOver_yields_ok w' rstamped.valid (rstamped.slash_not_mem_file_iff.2 hslash) hb hhand
      have hreplaces := happlied.replaces one hadmits rstamped.valid rfl
      obtain ⟨d, n, hs'⟩ := handOver_session hhand
      rw [hs'] at hreplaces ⊢
      have hready' : Session.Ready { s with clock, disk := d, nextBatch := n } :=
        ⟨hready.closed, hready.attached⟩
      have hfound := find_of_replaces rstamped hkind hb hready' hreg hreplaces
      exact ⟨⟨blob, hb, hreplaces⟩, hfound, hready', rfl⟩

theorem Item.header_of_acted {i : Item} {form : Form} (h : i.acted action form = .ok acted) :
    acted.header = i.header := by
  obtain ⟨t, status, deferral, -, rfl⟩ := acted_eq h
  rfl

/-- An action that succeeds changes the item that is found, answers with the page of the item before the
item is stamped, and saves it. -/
theorem Dispatch.yields_ok (hreg : s.registry = .bundled)
    (h : (Dispatch.dispatch action.name ident).Yields s (.ok answer) s') :
    ∃ item acted i, (Store.find ident).Yields s (.ok item) s ∧ item.acted action s.input = .ok acted
      ∧ (acted.showPage s.surroundings).Yields () (.ok answer) ()
      ∧ (Store.save .update).Yields (s, acted) (.ok ()) (s', i) := by
  have hname : Action.ofName action.name = .ok (.onTask action) := Action.ofName_name (.onTask action)
  unfold Dispatch.dispatch at h
  rw [hname] at h
  obtain ⟨_, s₁, hopen, hrest⟩ := yields_bind_ok_iff.1 (yields_ofExcept_ok_bind_iff.1 h)
  obtain ⟨-, rfl⟩ := hopen.unique (ensureOpen_yields s)
  have hact : (Dispatch.actOnItem (.onTask action) ident).Yields s₁ (.ok answer) s' :=
    yields_report_bind_iff.1 hrest
  obtain ⟨item, s₂, hfind, hlocal⟩ := yields_bind_ok_iff.1 hact
  obtain ⟨rfl, found, -, hdecode⟩ := Store.find_yields_ok hfind
  rw [hreg] at hdecode
  have r := (regular_of_decodeItem hdecode).1
  obtain ⟨⟨response, i⟩, s₃, hbody, hpure⟩ := yields_bind_ok_iff.1 (yields_state_bind_iff.1 hlocal)
  obtain ⟨heq, rfl⟩ := yields_pure_iff.1 hpure
  cases heq
  obtain ⟨response, st, hpage, hrest⟩ := yields_bind_ok_iff.1 hbody.of_withLocal
  obtain ⟨i', hi', rfl⟩ := yields_onSecond_iff.1 hpage
  obtain ⟨_, st, hsave, hpure⟩ := yields_bind_ok_iff.1 hrest
  obtain ⟨heq, rfl⟩ := yields_pure_iff.1 hpure
  cases heq
  have hacted := r.act_yields action s₂.surroundings
  cases hout : item.acted action s₂.surroundings.input with
  | error e =>
      rw [hout] at hacted
      cases (hi'.unique hacted).1
  | ok acted =>
      rw [hout] at hacted
      obtain ⟨hshow, rfl⟩ := hi'.unique hacted
      have hshown := yields_run (i'.showPage s₂.surroundings) ()
      rw [← hshow] at hshown
      exact ⟨item, i', i, hfind, hout, hshown, hsave⟩

/-- An action that an item in a repository at rest takes succeeds, if the changed item can be shown and has
bytes, and its record has a name that a file can have. -/
theorem Dispatch.yields {m : Repository.Contents} (w : Repository.AtRest m s.disk) (hready : s.Ready)
    (hfind : (Store.find ident).Yields s (.ok item) s) (r : item.Regular)
    (hacted : item.acted action s.input = .ok acted) (hnamed : acted.Named)
    (hpage : (acted.showPage s.surroundings).Yields () (.ok answer) ()) {clock : Clock}
    (hclock : s.clock.advance = .ok clock) (hnow : s.clock.now.Recordable) {blob : Bytes}
    (hb : (acted.stamped s.user s.clock.now).bytes = .ok blob) :
    ∃ s', (Dispatch.dispatch action.name ident).Yields s (.ok answer) s' := by
  have racted := r.acted hacted
  have hop : Operation.update ≠ .delete := nofun
  obtain ⟨d, hhand, -⟩ := Store.handOver_atRest (s := { s with clock }) w ⟨hready.closed, hready.attached⟩
    (racted.stamped s.user hnow).1 hnamed hop hb
  obtain ⟨s', hsave⟩ : ∃ s', (Store.save .update).Yields (s, acted) (.ok ())
      (s', acted.stamped s.user s.clock.now) := ⟨_, Store.save_yields racted hclock hhand⟩
  have hact := r.act_yields action s.surroundings
  have hinput : item.acted action s.surroundings.input = .ok acted := hacted
  rw [hinput] at hact
  dsimp only at hact
  rw [← (hpage.unique (yields_run _ ())).1] at hact
  have hitem : (Dispatch.actOnItem (.onTask action) ident).Yields s (.ok answer) s' :=
    Dispatch.actOnItem_yields (a := .onTask action) hfind hact hsave
  have hname : Action.ofName action.name = .ok (.onTask action) := Action.ofName_name (.onTask action)
  refine ⟨s', ?_⟩
  unfold Dispatch.dispatch
  rw [hname]
  exact yields_ofExcept_ok_bind_iff.2 (hready.ensureOpen.bind (yields_report_bind_iff.2 hitem))

/-- An action that succeeds answers with the page of the changed item as it was before its stamp, and the page
that is shown from then on has another foot, unless the identifier of the item leads elsewhere. -/
theorem Dispatch.showPage_of_yields (w : s.disk.WellFormed) (one : Repository.OneFile s.disk)
    (hreg : s.registry = .bundled) (hview : s.view = .bundled) (hnow : s.clock.now.Recordable)
    (h : (Dispatch.dispatch action.name ident).Yields s (.ok answer) s') :
    ∃ item acted top, (Store.find ident).Yields s (.ok item) s
      ∧ item.Regular
      ∧ item.acted action s.input = .ok acted
      ∧ answer = Response.addTag "content" (top ++ Payload.foot item.header) {}
      ∧ (.char '/' ∉ item.ident → Saved s (acted.stamped s.user s.clock.now) s'
        ∧ (Store.showPage item.ident).Yields s' (.ok (Response.addTag "content"
          (top ++ Payload.foot (item.header.stamped s.user s.clock.now)) {})) s') := by
  obtain ⟨item, acted, i, hfind, hacted, hpage, hsave⟩ := yields_ok hreg h
  obtain ⟨-, found, -, hdecode⟩ := Store.find_yields_ok hfind
  rw [hreg] at hdecode
  obtain ⟨r, hrecorded⟩ := regular_of_decodeItem hdecode
  have racted := r.acted hacted
  have hheader := Item.header_of_acted hacted
  have hrecorded' : acted = acted.recorded := by
    rw [Item.eq_recorded_iff, hheader]
    exact Item.eq_recorded_iff.1 hrecorded
  have hident : item.ident = acted.ident := congrArg Header.ident hheader.symm
  obtain ⟨top, hanswer, htop⟩ := Payload.showPage_stamped hview hpage
  refine ⟨item, acted, top, hfind, r, hacted, hheader ▸ hanswer, fun hslash => ?_⟩
  have hsaved := Store.saved_of_save w one hreg (Store.ready_of_find hfind) racted hrecorded'
    (hident ▸ hslash) hnow hsave
  obtain ⟨blob, hb, -⟩ := hsaved.stored
  have hshown := htop s.user s.clock.now (Item.revisionFits_of_bytes (racted.stamped s.user hnow).1 hb)
  rw [← hsaved.around] at hshown
  have hget : (Store.get item.ident).Yields s' (.ok (acted.stamped s.user s.clock.now)) s' := by
    rw [hident]
    exact hsaved.ready.ensureOpen.bind hsaved.found
  refine ⟨hsaved, ?_⟩
  rw [← hheader]
  exact hget.bind (yields_state_bind_iff.2 hshown.lift)

/-- **The page of an action.** An action that succeeds answers with the page of the changed item without a
stamp, but replaces the record of the item by that of the changed item with one, if the record holds the
identifier that it was found for, or another one without a slash.  The page that is shown from then on has
another foot, with the next revision and the time and the author of the action: it is never the one that the
action answered with. -/
theorem Dispatch.page_without_stamp (w : s.disk.WellFormed) (one : Repository.OneFile s.disk)
    (hnames : ∀ name ∈ s.disk.names [], .char '/' ∉ name)
    (hreg : s.registry = .bundled) (hview : s.view = .bundled) (hnow : s.clock.now.Recordable)
    (h : (Dispatch.dispatch action.name ident).Yields s (.ok answer) s') :
    ∃ item acted top, (Store.find ident).Yields s (.ok item) s
      ∧ item.acted action s.input = .ok acted
      ∧ answer.tag? "content" = some (top ++ Payload.foot item.header)
      ∧ (item.ident = ident ∨ .char '/' ∉ item.ident →
        Saved s (acted.stamped s.user s.clock.now) s'
          ∧ ∃ shown, (Store.showPage item.ident).Yields s' (.ok shown) s'
            ∧ shown.tag? "content" = some (top ++ Payload.foot (item.header.stamped s.user s.clock.now))
            ∧ answer ≠ shown) := by
  obtain ⟨item, acted, top, hfind, r, hacted, rfl, hpage⟩ :=
    showPage_of_yields w one hreg hview hnow h
  refine ⟨item, acted, top, hfind, hacted, rfl, fun hown => ?_⟩
  obtain ⟨-, found, hread, -⟩ := Store.find_yields_ok hfind
  have hslash : .char '/' ∉ item.ident :=
    hown.elim (fun heq => heq ▸ Store.slash_not_mem_of_read hnames hread) id
  obtain ⟨hsaved, hshown⟩ := hpage hslash
  refine ⟨hsaved, _, hshown, rfl, fun heq => ?_⟩
  have hcontent := congrArg (Response.tag? "content") heq
  exact Payload.foot_stamped_ne r.header _ _ (List.append_cancel_left (Option.some.inj hcontent)).symm

end Acting

/-! ## A plain task -/

/-- The task `a`. -/
def plainTask : Item where
  header := Header.fresh "a" (.word Kind.task.name)
  payload := { kind := .task, body := .task { name := "n" } }

/-- The same task when it is done. -/
def doneTask : Item where
  header := Header.fresh "a" (.word Kind.task.name)
  payload := { kind := .task, body := .task { name := "n", status := .done } }

/-- The record of the task that is not done. -/
def plainTaskRecord : Bytes :=
  Utf8.encodeChars "\x7b\"ident\":\"a\",\"kind\":\"task\",\"name\":\"n\"\x7d".toList

/-- A repository with this record. -/
def plainTaskDisk : Disk := Disk.put [RecordName.file Kind.task.name "a"] (.file plainTaskRecord) {}

theorem atRest_plainTaskDisk : Repository.AtRest
    (Function.update (fun _ => none) "a" (some (Kind.task.name, plainTaskRecord))) plainTaskDisk :=
  Repository.atRest_empty.put_file (by decide) (by simp) plainTaskRecord

theorem decode_plainTaskRecord :
    (Registry.decodeItem plainTaskRecord .bundled).Yields () (.ok plainTask) () := by
  have hmembers : Record.decode plainTaskRecord = .ok [("ident", .str "a"),
      ("kind", .str Kind.task.name), ("name", .str "n")] := by cbv
  exact decodeItem_yields hmembers rfl Registry.get_bundled_task

theorem find_plainTask :
    (Store.find "a").Yields (.starting plainTaskDisk) (.ok plainTask) (.starting plainTaskDisk) :=
  Store.find_of_read ⟨rfl, rfl⟩ (atRest_plainTaskDisk.settled.represents.read_eq "a") decode_plainTaskRecord

theorem slash_not_mem_plainTaskDisk : ∀ name ∈ plainTaskDisk.names [], .char '/' ∉ name := by
  have hnames : plainTaskDisk.names [] = [RecordName.file Kind.task.name "a"] := by cbv
  rw [hnames]
  decide

/-- The task can be done. -/
theorem Dispatch.exists_done : ∃ answer s',
    (Dispatch.dispatch TaskAction.done.name "a").Yields (.starting plainTaskDisk) (.ok answer) s' := by
  have r : plainTask.Regular := (regular_of_decodeItem decode_plainTaskRecord).1
  have hclean : plainTask.Clean :=
    ⟨nofun, nofun, Text.plain_ofString "n", Text.plain_ofString "", Text.plain_ofString ""⟩
  have hnow := Session.recordable_starting plainTaskDisk
  have huser : ∀ u ∈ (Session.starting plainTaskDisk).user, u.Plain := by simp [Session.starting]
  have hacted : plainTask.acted .done (Session.starting plainTaskDisk).input = .ok doneTask := rfl
  obtain ⟨rstamped, hcounted⟩ := (r.acted hacted).stamped (Session.starting plainTaskDisk).user hnow
  have hshort := hcounted.short_iff.2 (one_lt_pow₀ (by decide) (by decide))
  obtain ⟨blob, hb⟩ := rstamped.bytes_ok_iff.2 ⟨(hclean.acted hacted).stamped huser _, hshort⟩
  obtain ⟨clock, hclock⟩ : ∃ clock, (Session.starting plainTaskDisk).clock.advance = .ok clock := ⟨_, rfl⟩
  have hnamed : Path.IsFileName (RecordName.file Kind.task.name "a") := by decide +kernel
  obtain ⟨s', hdispatch⟩ := yields atRest_plainTaskDisk ⟨rfl, rfl⟩ find_plainTask r hacted hnamed
    (Payload.showPage_yields rfl) hclock hnow hb
  exact ⟨_, s', hdispatch⟩

/-- Doing the task answers with a page of revision 0, and the page that is shown from then on is one of
revision 1. -/
theorem Dispatch.page_without_stamp_done : ∃ (answer shown : Response) (top : Text) (s' : Session),
    (Dispatch.dispatch TaskAction.done.name "a").Yields (.starting plainTaskDisk) (.ok answer) s'
      ∧ (Store.showPage "a").Yields s' (.ok shown) s'
      ∧ answer.tag? "content"
        = some (top ++ "</div>\n  <footer>revision 0, updated  by </footer>\n</article>\n")
      ∧ shown.tag? "content"
        = some (top ++ "</div>\n  <footer>revision 1, updated 2024-01-01T00:00:00 by </footer>\n</article>\n") := by
  obtain ⟨answer, s', hdispatch⟩ := exists_done
  obtain ⟨item, acted, top, hfind, -, hanswer, hown⟩ := page_without_stamp
    atRest_plainTaskDisk.settled.wellFormed atRest_plainTaskDisk.settled.represents.tidy.oneFile
    slash_not_mem_plainTaskDisk rfl rfl (Session.recordable_starting plainTaskDisk) hdispatch
  obtain rfl : item = plainTask := Except.ok.inj (hfind.unique find_plainTask).1
  obtain ⟨-, shown, hshown, hcontent, -⟩ := hown (.inl rfl)
  exact ⟨answer, shown, top, s', hdispatch, hshown, hanswer, hcontent⟩

/-- The page that doing the task answers with is not the one that is shown from then on. -/
theorem Dispatch.not_showPage_of_done : ∃ answer s',
    (Dispatch.dispatch TaskAction.done.name "a").Yields (.starting plainTaskDisk) (.ok answer) s'
      ∧ ¬ (Store.showPage "a").Yields s' (.ok answer) s' := by
  obtain ⟨answer, s', hdispatch⟩ := exists_done
  obtain ⟨item, acted, top, hfind, r, -, hanswer, hpage⟩ := showPage_of_yields
    atRest_plainTaskDisk.settled.wellFormed atRest_plainTaskDisk.settled.represents.tidy.oneFile rfl rfl
    (Session.recordable_starting plainTaskDisk) hdispatch
  obtain rfl : item = plainTask := Except.ok.inj (hfind.unique find_plainTask).1
  obtain ⟨-, hshown⟩ := hpage (by decide)
  refine ⟨answer, s', hdispatch, fun hsame => ?_⟩
  have hresponse := Except.ok.inj (hsame.unique hshown).1
  have hcontent := congrArg (Response.tag? "content") (hanswer.symm.trans hresponse)
  exact Payload.foot_stamped_ne r.header _ _ (List.append_cancel_left (Option.some.inj hcontent)).symm

end RecordStore
