import Mathlib
import RecordStore.Proofs.Merge.Order
import RecordStore.Proofs.Merge.Settlement

/-!
# RecordStore.Proofs.Merge.Symmetry

Merging is symmetric: it does not matter which of its two sides a conflict calls ours
(`resolve_swapped`).  Both ways the conflict is settled by items with the same fields, revisions and
points in time (`Mirrored`), or it fails alike.

A merged item takes its authors from our side, and the bytes of a record cannot hold a lone
surrogate.  So the sides may not differ in whether their authors have one
(`resolve_swapped_surrogate`).
-/

namespace RecordStore

open Procedure

namespace Merge

/-! ## Alike outcomes -/

/-- Items with the same fields and revisions, created and written at the same points in time. -/
structure Mirrored (a b : Item) : Prop where
  fields : a.payload.fields = b.payload.fields
  revision : a.header.revision = b.header.revision
  parentRevision : a.header.parentRevision = b.header.parentRevision
  createdAt : Header.sameTime a.header.createdAt b.header.createdAt = true
  modifiedAt : Header.sameTime a.header.modifiedAt b.header.modifiedAt = true

/-- Conflicts are settled by mirrored items, handed over with the same fields, or fail alike: in the
same way, or both because of a lone surrogate, wherever it stands. -/
inductive SameOutcome : Except Failure Item → Except Failure Item → Prop
  | settled {a b : Item} (h : Mirrored a b) : SameOutcome (.ok a) (.ok b)
  | handedOver {x y : Escalation} (h : x.fields = y.fields) :
      SameOutcome (.error (.unresolvable x)) (.error (.unresolvable y))
  | unencodable (x y : Utf8.EncodeFault) :
      SameOutcome (.error (.unencodable x)) (.error (.unencodable y))
  | failed (f : Failure) : SameOutcome (.error f) (.error f)

/-! ## Fields -/

section Fields

variable {mine other winner : Members} {common : Option Members} {key : Text} {v w : Json}

theorem contested_comm : Contested mine other common key ↔ Contested other mine common key := by
  unfold Contested
  rw [ne_comm]
  simp only [and_comm]

theorem MergesTo.swapped (h : MergesTo mine other common winner key v) :
    MergesTo other mine common winner key v where
  agreed heq := (h.agreed heq.symm).trans heq.symm
  changedByOther := h.changedByMine
  changedByMine := h.changedByOther
  contested hc := h.contested (contested_comm.2 hc)

/-- There is one value that a field should have. -/
theorem MergesTo.unique (h : MergesTo mine other common winner key v)
    (h' : MergesTo mine other common winner key w) : v = w := by
  by_cases heq : valueOf mine key = valueOf other key
  · rw [h.agreed heq, h'.agreed heq]
  · by_cases hc : Contested mine other common key
    · rw [h.contested hc, h'.contested hc]
    · obtain ⟨a, ha, hsame⟩ : ∃ a ∈ common,
          valueOf mine key = valueOf a key ∨ valueOf other key = valueOf a key := by
        by_contra hnone
        push Not at hnone
        exact hc ⟨heq, hnone⟩
      rcases hsame with hsame | hsame
      · rw [h.changedByOther a ha hsame, h'.changedByOther a ha hsame]
      · rw [h.changedByMine a ha hsame, h'.changedByMine a ha hsame]

theorem allKeys_comm (h : mine.keys = other.keys) : allKeys other mine = allKeys mine other := by
  have hnone : ∀ keys : List Text, (keys.filter fun k => !keys.contains k) = [] := fun keys => by
    simp
  rw [allKeys, allKeys, h, hnone]

/-- Members with the same keys and values are the same. -/
theorem members_ext {a b : Members} (hkeys : a.keys = b.keys) (hn : a.keys.Nodup)
    (hvalue : ∀ key, valueOf a key = valueOf b key) : a = b := by
  induction a generalizing b with
  | nil =>
      cases b with
      | nil => rfl
      | cons m b => cases hkeys
  | cons m a ih =>
      obtain ⟨k, v⟩ := m
      cases b with
      | nil => cases hkeys
      | cons m' b =>
          obtain ⟨k', v'⟩ := m'
          obtain ⟨rfl, htail⟩ : k = k' ∧ Members.keys a = Members.keys b := List.cons.inj hkeys
          obtain ⟨hnew, hn⟩ := List.nodup_cons.1 hn
          have hv : v = v' := by simpa [valueOf, Members.get?] using hvalue k
          have hrest : a = b := by
            refine ih htail hn fun key => ?_
            by_cases hkey : k = key
            · subst hkey
              have hnew' : k ∉ Members.keys b := htail ▸ hnew
              rw [valueOf_of_not_mem hnew, valueOf_of_not_mem hnew']
            · simpa [valueOf, Members.get?, hkey] using hvalue key
          rw [hv, hrest]

end Fields

section Union

variable {ours theirs : Item} {ancestor : Option Item} {c : Conflict}

theorem OneKind.symm (h : OneKind ours theirs ancestor) : OneKind theirs ours ancestor :=
  ⟨Eq.symm h.sameSort, h.theirsBundled, h.oursBundled, h.ancestorBundled⟩

theorem OneKind.keys_eq (h : OneKind ours theirs ancestor) :
    ours.payload.fields.keys = theirs.payload.fields.keys := by
  rw [fields_of_bundled h.oursBundled, fields_of_bundled h.theirsBundled]
  exact h.sameSort

theorem OneKind.contestedFields_comm (h : OneKind ours theirs ancestor) :
    contestedFields theirs ours ancestor = contestedFields ours theirs ancestor := by
  unfold contestedFields contested
  rw [allKeys_comm h.keys_eq]
  refine List.filter_congr fun key _ => ?_
  have hiff : settledValue? theirs.payload.fields ours.payload.fields (commonFields ancestor) key = none
      ↔ settledValue? ours.payload.fields theirs.payload.fields (commonFields ancestor) key = none := by
    rw [h.comparable.settledValue?_eq_none_iff, h.symm.comparable.settledValue?_eq_none_iff,
      contested_comm]
  rw [Bool.eq_iff_iff, Option.isNone_iff_eq_none, Option.isNone_iff_eq_none]
  exact hiff

/-- The union of fields is symmetric: both ways it gives the same fields, or fails alike. -/
theorem OneKind.merge_swapped (h : OneKind ours theirs ancestor) (tieBreak : Bool)
    (hsame : c.ours.getD [] = c.theirs.getD [] → ours = theirs) :
    (∃ p q, (merge (.fieldUnion tieBreak) ours theirs ancestor c).Yields ()
          (.ok { ours with payload := p }) ()
        ∧ (merge (.fieldUnion tieBreak) theirs ours ancestor c.swapped).Yields ()
          (.ok { theirs with payload := q }) ()
        ∧ ∀ key, valueOf p.fields key = valueOf q.fields key)
      ∨ ∃ f g, (merge (.fieldUnion tieBreak) ours theirs ancestor c).Yields () (.error f) ()
        ∧ (merge (.fieldUnion tieBreak) theirs ours ancestor c.swapped).Yields () (.error g) ()
        ∧ SameOutcome (.error f) (.error g) := by
  have hcomm := h.contestedFields_comm
  by_cases hnone : contestedFields ours theirs ancestor = []
  · -- No field is contested, so that the winner, which each side takes to be itself, does not matter.
    obtain ⟨p, hp, hmerges⟩ := h.unionFields_yields c tieBreak (.inl ⟨hnone, rfl⟩)
    obtain ⟨q, hq, hmerges'⟩ :=
      h.symm.unionFields_yields c.swapped tieBreak (.inl ⟨hcomm.trans hnone, rfl⟩)
    refine .inl ⟨p, q, hp, hq, fun key => ?_⟩
    have huncontested : ¬ Contested ours.payload.fields theirs.payload.fields (commonFields ancestor) key :=
      fun hc => h.contestedFields_ne_nil_iff.2 ⟨key, hc⟩ hnone
    have hours : MergesTo ours.payload.fields theirs.payload.fields (commonFields ancestor)
        theirs.payload.fields key (valueOf p.fields key) :=
      ⟨(hmerges key).agreed, (hmerges key).changedByOther, (hmerges key).changedByMine,
        fun hc => absurd hc huncontested⟩
    exact hours.unique (hmerges' key).swapped
  · have hnone' : contestedFields theirs ours ancestor ≠ [] := hcomm ▸ hnone
    cases tieBreak with
    | false =>
        refine .inr ⟨_, _, unionFields_yields_contested hnone, unionFields_yields_contested hnone', ?_⟩
        exact .handedOver hcomm.symm
    | true =>
        have hpick := pickLater_swapped hsame
        cases hwinner : pickLater ours theirs c with
        | error f =>
            refine .inr ⟨f, f, unionFields_yields_error hnone hwinner,
              unionFields_yields_error hnone' (hpick.trans hwinner), .failed f⟩
        | ok winner =>
            obtain ⟨p, hp, hmerges⟩ := h.unionFields_yields c true (.inr ⟨hnone, rfl, hwinner⟩)
            obtain ⟨q, hq, hmerges'⟩ :=
              h.symm.unionFields_yields c.swapped true (.inr ⟨hnone', rfl, hpick.trans hwinner⟩)
            exact .inl ⟨p, q, hp, hq, fun key => (hmerges key).unique (hmerges' key).swapped⟩

end Union

/-! ## Merged items -/

/-- The authors that a merged item may take from a side have no lone surrogates. -/
structure PlainAuthors (user : Option Text) (side : Item) : Prop where
  createdBy : PlainAuthor side.header.createdBy
  updatedBy : user.getD [] = [] → PlainAuthor side.header.updatedBy

section Items

variable {a b ours theirs : Item} {ancestor : Option Item} {c : Conflict} {user : Option Text}

/-- Whether a merged item has an author with a lone surrogate does not depend on the side it is from. -/
theorem plainAuthor_mergedBy (ha : PlainAuthors user a) (hb : PlainAuthors user b) :
    PlainAuthor (mergedBy user a.header.updatedBy) ↔ PlainAuthor (mergedBy user b.header.updatedBy) := by
  unfold mergedBy
  split
  · exact Iff.rfl
  · next hnone =>
    have hempty : user.getD [] = [] := by
      cases user with
      | none => rfl
      | some u => cases u with
        | nil => rfl
        | cons g t => exact absurd rfl (hnone g t)
    exact iff_of_true (ha.updatedBy hempty) (hb.updatedBy hempty)

theorem clean_iff_of_mirrored (ra : a.Regular) (rb : b.Regular) (h : Mirrored a b)
    (hcreated : PlainAuthor a.header.createdBy ↔ PlainAuthor b.header.createdBy)
    (hupdated : PlainAuthor a.header.updatedBy ↔ PlainAuthor b.header.updatedBy) :
    a.Clean ↔ b.Clean := by
  have hbody : a.payload.body.Plain ↔ b.payload.body.Plain := by
    rw [Body.plain_iff, Body.plain_iff, ← fields_of_bundled ra.payload, ← fields_of_bundled rb.payload,
      h.fields]
  constructor
  · rintro ⟨h₁, h₂, h₃⟩
    exact ⟨hcreated.1 h₁, hupdated.1 h₂, hbody.1 h₃⟩
  · rintro ⟨h₁, h₂, h₃⟩
    exact ⟨hcreated.2 h₁, hupdated.2 h₂, hbody.2 h₃⟩

/-- Mirrored items have bytes both, or fail to have them alike. -/
theorem bytes_of_mirrored (ra : a.Regular) (rb : b.Regular) (h : Mirrored a b)
    (hclean : a.Clean ↔ b.Clean) :
    (∃ x y, a.bytes = .ok x ∧ b.bytes = .ok y)
      ∨ ∃ f g, a.bytes = .error f ∧ b.bytes = .error g ∧ SameOutcome (.error f) (.error g) := by
  have hshort : a.header.Short ↔ b.header.Short := by
    constructor
    · rintro ⟨h₁, h₂⟩
      exact ⟨h.revision ▸ h₁, h.parentRevision ▸ h₂⟩
    · rintro ⟨h₁, h₂⟩
      exact ⟨h.revision ▸ h₁, h.parentRevision ▸ h₂⟩
  have hbytes : (∃ x, a.bytes = .ok x) ↔ ∃ y, b.bytes = .ok y := by
    rw [ra.bytes_ok_iff, rb.bytes_ok_iff, hclean, hshort]
  cases hx : a.bytes with
  | ok x =>
      obtain ⟨y, hy⟩ := hbytes.1 ⟨x, hx⟩
      exact .inl ⟨x, y, rfl, hy⟩
  | error f =>
      cases hy : b.bytes with
      | ok y =>
          obtain ⟨x, hx'⟩ := hbytes.2 ⟨y, hy⟩
          cases hx.symm.trans hx'
      | error g =>
          refine .inr ⟨f, g, rfl, rfl, ?_⟩
          rcases ra.bytes_error hx with ⟨rfl, hlong⟩ | ⟨⟨x, rfl⟩, hs⟩
          · rcases rb.bytes_error hy with ⟨rfl, -⟩ | ⟨-, hs⟩
            · exact .failed _
            · exact absurd (hshort.2 hs) hlong
          · rcases rb.bytes_error hy with ⟨rfl, hlong⟩ | ⟨⟨y, rfl⟩, -⟩
            · exact absurd (hshort.1 hs) hlong
            · exact .unencodable x y

/-- The headers of merged items, each made from its own side. -/
theorem mergedHeader_swapped (h : Header.sameTime ours.header.createdAt theirs.header.createdAt = true) :
    (∃ x y, mergedHeader ours.header theirs.header user ours.header = .ok x
        ∧ mergedHeader theirs.header ours.header user theirs.header = .ok y
        ∧ x.revision = y.revision ∧ x.parentRevision = y.parentRevision
        ∧ Header.sameTime x.createdAt y.createdAt = true ∧ Header.sameTime x.modifiedAt y.modifiedAt = true
        ∧ x.createdBy = ours.header.createdBy ∧ y.createdBy = theirs.header.createdBy
        ∧ x.updatedBy = mergedBy user ours.header.updatedBy
        ∧ y.updatedBy = mergedBy user theirs.header.updatedBy)
      ∨ ∃ f, mergedHeader ours.header theirs.header user ours.header = .error f
        ∧ mergedHeader theirs.header ours.header user theirs.header = .error f := by
  have hswap := laterTime_swap ours.header.modifiedAt theirs.header.modifiedAt
  unfold mergedHeader
  cases hlater : laterTime ours.header.modifiedAt theirs.header.modifiedAt with
  | error f =>
      rw [hlater] at hswap
      exact .inr ⟨f, rfl, by rw [hswap]; rfl⟩
  | ok t =>
      rw [hlater] at hswap
      obtain ⟨t', hlater', htime⟩ := hswap
      rw [hlater', Int.max_comm theirs.header.revisionNumber]
      exact .inl ⟨_, _, rfl, rfl, rfl, rfl, h, htime, rfl, rfl, rfl, rfl⟩

theorem Matching.swapped (h : Matching c ours theirs ancestor) :
    Matching c.swapped theirs ours ancestor :=
  ⟨h.readTheirs, h.readOurs, h.readAncestor, h.theirsMatches, h.oursMatches, h.ancestorMatches⟩

/-- Sides that are read from the same bytes are the same. -/
theorem Matching.eq_of_bytes (h : Matching c ours theirs ancestor)
    (hbytes : c.ours.getD [] = c.theirs.getD []) : ours = theirs := by
  have hours := h.readOurs
  have htheirs := h.readTheirs
  cases ho : c.ours with
  | none => rw [ho] at hours; cases (yields_fail_iff.1 hours).1
  | some x =>
      cases ht : c.theirs with
      | none => rw [ht] at htheirs; cases (yields_fail_iff.1 htheirs).1
      | some y =>
          obtain rfl : x = y := by simpa [ho, ht] using hbytes
          rw [ho] at hours
          rw [ht] at htheirs
          exact Except.ok.inj (hours.unique htheirs).1

/-- The fields of merged items are the same when their values are. -/
theorem Matching.fields_eq (h : Matching c ours theirs ancestor) {p q : Payload}
    (rp : Item.Regular { ours with payload := p }) (rq : Item.Regular { theirs with payload := q })
    (hvalue : ∀ key, valueOf p.fields key = valueOf q.fields key) : p.fields = q.fields := by
  have hkind : p.kind.name = q.kind.name := by
    have hp : ours.header.kind.name = p.kind.name := rp.kind
    have hq : theirs.header.kind.name = q.kind.name := rq.kind
    rw [← hp, ← hq]
    exact h.oursMatches.1.trans h.theirsMatches.1.symm
  refine members_ext ?_ (nodup_keys_fields rp.payload) hvalue
  rw [fields_of_bundled rp.payload, fields_of_bundled rq.payload]
  exact sameSort_of_bundled rp.payload rq.payload hkind

/-- Merging the sides of a conflict is symmetric. -/
theorem Matching.uniteSides_swapped (h : Matching c ours theirs ancestor) (tieBreak : Bool)
    (ho : PlainAuthors user ours) (ht : PlainAuthors user theirs) :
    (∃ i j x y, (uniteSides user (.fieldUnion tieBreak) c ours theirs ancestor).Yields () (.ok (i, x)) ()
        ∧ (uniteSides user (.fieldUnion tieBreak) c.swapped theirs ours ancestor).Yields () (.ok (j, y)) ()
        ∧ Mirrored i j ∧ i.ident = j.ident)
      ∨ ∃ f g, (uniteSides user (.fieldUnion tieBreak) c ours theirs ancestor).Yields () (.error f) ()
        ∧ (uniteSides user (.fieldUnion tieBreak) c.swapped theirs ours ancestor).Yields () (.error g) ()
        ∧ SameOutcome (.error f) (.error g) := by
  have ro := regular_of_decodeFound h.readOurs
  have rt := regular_of_decodeFound h.readTheirs
  by_cases created : Header.sameTime ours.header.createdAt theirs.header.createdAt = true
  case neg =>
    have apart := Bool.eq_false_iff.2 created
    exact .inr ⟨_, _, uniteSides_yields_apart apart,
      uniteSides_yields_apart (Header.sameTime_comm _ _ ▸ apart), .handedOver rfl⟩
  have created' := Header.sameTime_comm _ _ ▸ created
  rcases h.oneKind.merge_swapped tieBreak h.eq_of_bytes with
    ⟨p, q, hp, hq, hvalue⟩ | ⟨f, g, hf, hg, hsame⟩
  case inr =>
    exact .inr ⟨f, g, uniteSides_yields_error created hf, uniteSides_yields_error created' hg, hsame⟩
  have rp := regular_of_merge ro.1 rt.1 hp
  have rq := regular_of_merge rt.1 ro.1 hq
  rcases @mergedHeader_swapped ours theirs user created with
    ⟨x, y, hx, hy, hrevision, hparent, hcreatedAt, hmodifiedAt, hcreated, hcreated', hupdated, hupdated'⟩
      | ⟨f, hf, hf'⟩
  case inr =>
    exact .inr ⟨f, f, uniteSides_yields_header_error created hp hf,
      uniteSides_yields_header_error created' hq hf', .failed f⟩
  have hi := merged_of_mergedHeader ro rt h.oursMatches h.theirsMatches rp (.inl rfl) hx
  have hj := merged_of_mergedHeader rt ro h.theirsMatches h.oursMatches rq (.inl rfl) hy
  have hmirrored : Mirrored { header := x, payload := p } { header := y, payload := q } :=
    ⟨h.fields_eq rp rq hvalue, hrevision, hparent, hcreatedAt, hmodifiedAt⟩
  have hclean : Item.Clean { header := x, payload := p } ↔ Item.Clean { header := y, payload := q } := by
    refine clean_iff_of_mirrored hi.regular hj.regular hmirrored ?_ ?_
    · rw [hcreated, hcreated']
      exact iff_of_true ho.createdBy ht.createdBy
    · rw [hupdated, hupdated']
      exact plainAuthor_mergedBy ho ht
  rcases bytes_of_mirrored hi.regular hj.regular hmirrored hclean with
    ⟨b, b', hb, hb'⟩ | ⟨f, g, hf, hg, hsame⟩
  · exact .inl ⟨_, _, b, b', uniteSides_yields_settled created hp hx hb,
      uniteSides_yields_settled created' hq hy hb', hmirrored, hi.ident.trans hj.ident.symm⟩
  · exact .inr ⟨f, g, uniteSides_yields_bytes_error created hp hx hf,
      uniteSides_yields_bytes_error created' hq hy hg, hsame⟩

/-- Whether a list takes a change depends on what the change is about. -/
theorem append_result_congr {x y : Change} (l : ChangeList) (hident : x.ident = y.ident)
    (hop : x.operation = y.operation) :
    (run (ChangeList.append x) l).result = (run (ChangeList.append y) l).result := by
  rcases ChangeList.append_yields_iff.1 (yields_run (ChangeList.append x) l) with
    ⟨hx, hrx, -⟩ | ⟨hx, -, f, hrx, hf⟩
  all_goals
    rcases ChangeList.append_yields_iff.1 (yields_run (ChangeList.append y) l) with
      ⟨hy, hry, -⟩ | ⟨hy, -, g, hry, hg⟩
  · rw [hrx, hry]
  · exact absurd (hident ▸ hx) hy
  · exact absurd (hident ▸ hy) hx
  · rw [hrx, hry, hf, hg, hident, hop]

/-- **Symmetry.** When the records of a conflict can be read and belong to it, and no author that a
merged item may take has a lone surrogate, it does not matter which side is ours: both ways the
conflict is settled by mirrored items, handed over with the same fields, or fails alike. -/
theorem resolve_swapped (h : Matching c ours theirs ancestor) (ho : PlainAuthors user ours)
    (ht : PlainAuthors user theirs) (l : ChangeList) :
    ∃ e, Registry.bundled.get c.kind = .ok e
      ∧ SameOutcome (run (resolve .bundled user e.merge c) l).result
        (run (resolve .bundled user e.merge c.swapped) l).result := by
  obtain ⟨e, he, tieBreak, hmerge⟩ : ∃ e, Registry.bundled.get c.kind = .ok e
      ∧ ∃ tieBreak, e.merge = .fieldUnion tieBreak := by
    have ro := (regular_of_decodeFound h.readOurs).1
    obtain ⟨e, he⟩ := ro.payload.get_kind
    rw [← ro.kind] at he
    have hkind : Registry.bundled.get c.kind = .ok e := h.oursMatches.1 ▸ he
    rcases Registry.get_bundled_ok hkind with ⟨-, rfl⟩ | ⟨-, rfl⟩
    · exact ⟨_, hkind, false, rfl⟩
    · exact ⟨_, hkind, true, rfl⟩
  refine ⟨e, he, ?_⟩
  rw [hmerge]
  rcases h.uniteSides_swapped tieBreak ho ht with
    ⟨i, j, x, y, hi, hj, hmirrored, hident⟩ | ⟨f, g, hf, hg, hsame⟩
  · have happend := append_result_congr l (x := .update i.kind.name i.ident x)
      (y := .update j.kind.name j.ident y) hident rfl
    have hours := resolve_yields_settled (h.settlement_yields hi) (yields_run (ChangeList.append _) l)
    have htheirs := resolve_yields_settled (h.swapped.settlement_yields hj)
      (yields_run (ChangeList.append _) l)
    rw [hours.1, htheirs.1, happend]
    cases (run (ChangeList.append (.update j.kind.name j.ident y)) l).result with
    | error f => exact .failed f
    | ok _ => exact .settled hmirrored
  · have hours := resolve_yields_error (h.settlement_yields hf) (l := l)
    have htheirs := resolve_yields_error (h.swapped.settlement_yields hg) (l := l)
    rw [hours.1, htheirs.1]
    exact hsame

end Items

/-! ## Authors with lone surrogates -/

/-- A task that has nothing but someone who created it. -/
def createdTask (author : Text) : Item where
  header := { Header.fresh "a" (.word Kind.task.name) with createdBy := .value (some author) }
  payload := { kind := .task, body := .task {} }

/-- What settles a conflict of two such tasks. -/
def settledTask (author : Text) : Item :=
  let i := createdTask author
  { i with header := { i.header with parentRevision := .value (some 0), revision := .value 1 } }

/-- The record of such a task, the author given as it stands in JSON. -/
def createdRecord (author : String) : Bytes :=
  Utf8.encodeChars
    ("\x7b\"ident\":\"a\",\"kind\":\"task\",\"created_by\":\"" ++ author ++ "\"\x7d").toList

/-- The conflict of two such tasks. -/
def createdConflict (ours theirs : String) : Conflict :=
  ⟨Kind.task.name, "a", some (createdRecord ours), some (createdRecord theirs), none,
    "task-@a.json", rfl⟩

section Created

variable {ours theirs : String} {a b : Text}

/-- What the record of such a task holds. -/
def Creates (author : String) (a : Text) : Prop :=
  Record.decode (createdRecord author)
    = .ok [("ident", .str "a"), ("kind", .str "task"), ("created_by", .str a)]

theorem Creates.matching (ha : Creates ours a) (hb : Creates theirs b) :
    Matching (createdConflict ours theirs) (createdTask a) (createdTask b) none := by
  have hread : ∀ {s t}, Creates s t → (Registry.decodeFound (some (createdRecord s)) .bundled).Yields ()
      (.ok (createdTask t)) () :=
    fun h => decodeItem_yields h rfl Registry.get_bundled_task
  exact ⟨hread ha, hread hb, yields_pure _ _, ⟨rfl, rfl⟩, ⟨rfl, rfl⟩, by simp⟩

theorem Creates.uniteSides_yields (ha : Creates ours a) (hb : Creates theirs b) :
    (settledTask a).Regular ∧ match (settledTask a).bytes with
    | .ok blob => (uniteSides none (.fieldUnion true) (createdConflict ours theirs) (createdTask a)
        (createdTask b) none).Yields () (.ok (settledTask a, blob)) ()
    | .error f => (uniteSides none (.fieldUnion true) (createdConflict ours theirs) (createdTask a)
        (createdTask b) none).Yields () (.error f) () := by
  have h := ha.matching hb
  have hmerge : (merge (.fieldUnion true) (createdTask a) (createdTask b) none
      (createdConflict ours theirs)).Yields () (.ok (createdTask a)) () := ⟨by cbv, rfl⟩
  have hheader : mergedHeader (createdTask a).header (createdTask b).header none (createdTask a).header
      = .ok (settledTask a).header := rfl
  have ro := regular_of_decodeFound h.readOurs
  have hmerged := merged_of_mergedHeader ro (regular_of_decodeFound h.readTheirs) h.oursMatches
    h.theirsMatches ro.1 (.inl rfl) hheader
  refine ⟨hmerged.regular, ?_⟩
  cases hbytes : (settledTask a).bytes with
  | ok blob => exact uniteSides_yields_settled rfl hmerge hheader hbytes
  | error f => exact uniteSides_yields_bytes_error rfl hmerge hheader hbytes

theorem clean_settledTask_iff : (settledTask a).Clean ↔ a.Plain := by
  constructor
  · intro h
    exact h.createdBy a rfl
  · intro ha
    refine ⟨?_, nofun, ⟨[], rfl⟩, ⟨[], rfl⟩, ⟨[], rfl⟩⟩
    rintro _ ⟨⟩
    exact ha

theorem short_settledTask : (settledTask a).header.Short := by
  have hlimit : 1 < 10 ^ Json.digitLimit := Nat.one_lt_pow (by decide) (by decide)
  constructor
  · rintro _ ⟨⟩
    exact hlimit
  · rintro _ ⟨⟩
    exact Nat.lt_trans Nat.one_pos hlimit

/-- A conflict of two such tasks is settled when our author has no lone surrogate. -/
theorem Creates.settles_iff (ha : Creates ours a) (hb : Creates theirs b) :
    (∃ i, (run (resolve .bundled none (.fieldUnion true) (createdConflict ours theirs)) {}).result = .ok i)
      ↔ a.Plain := by
  obtain ⟨hregular, hunite⟩ := ha.uniteSides_yields hb
  have hbytes := hregular.bytes_ok_iff
  rw [clean_settledTask_iff, and_iff_left short_settledTask] at hbytes
  rw [← hbytes]
  cases hb' : (settledTask a).bytes with
  | error f =>
      rw [hb'] at hunite
      have hresolve := resolve_yields_error (l := {}) ((ha.matching hb).settlement_yields hunite)
      simp [hresolve.1]
  | ok blob =>
      rw [hb'] at hunite
      have hresolve := resolve_yields_settled (l := {}) ((ha.matching hb).settlement_yields hunite)
        (ChangeList.append_yields ⟨rfl, rfl⟩)
      rw [hresolve.1]
      exact iff_of_true ⟨_, rfl⟩ ⟨_, rfl⟩

theorem creates_ann : Creates "ann" "ann" := by
  unfold Creates
  cbv

theorem creates_bob : Creates "bob" "bob" := by
  unfold Creates
  cbv

theorem plainAuthors_createdTask (ha : a.Plain) : PlainAuthors none (createdTask a) := by
  refine ⟨?_, fun _ => nofun⟩
  rintro _ ⟨⟩
  exact ha

end Created

/-- Two tasks with different creators are settled, whichever is ours. -/
theorem resolve_swapped_creators : ∃ c ours theirs, Matching c ours theirs none
    ∧ PlainAuthors none ours ∧ PlainAuthors none theirs
    ∧ ∃ e, Registry.bundled.get c.kind = .ok e
      ∧ SameOutcome (run (resolve .bundled none e.merge c) {}).result
        (run (resolve .bundled none e.merge c.swapped) {}).result := by
  have h := creates_ann.matching creates_bob
  have ho := plainAuthors_createdTask (Text.plain_ofString "ann")
  have ht := plainAuthors_createdTask (Text.plain_ofString "bob")
  exact ⟨_, _, _, h, ho, ht, resolve_swapped h ho ht {}⟩

/-- One of two tasks was created by a lone surrogate.  As our side it is handed on to the merged item,
which has no bytes then; as their side it is not. -/
theorem resolve_swapped_surrogate :
    let c := createdConflict "\\ud800" "bob"
    Matching c (createdTask [.surrogate 0]) (createdTask "bob") none
      ∧ ∃ e, Registry.bundled.get c.kind = .ok e
        ∧ ¬ SameOutcome (run (resolve .bundled none e.merge c) {}).result
          (run (resolve .bundled none e.merge c.swapped) {}).result := by
  intro c
  have hlone : Creates "\\ud800" [.surrogate 0] := by
    unfold Creates
    cbv
  have h : Matching c (createdTask [.surrogate 0]) (createdTask "bob") none := hlone.matching creates_bob
  refine ⟨h, _, Registry.get_bundled_task, fun hsame => ?_⟩
  have hours : ¬ ∃ i, (run (resolve .bundled none (.fieldUnion true) c) {}).result = .ok i := by
    rw [hlone.settles_iff creates_bob]
    exact fun hplain => absurd (Text.plain_iff_forall.1 hplain _ List.mem_cons_self) (by decide)
  obtain ⟨i, hi⟩ := (creates_bob.settles_iff hlone).2 (Text.plain_ofString "bob")
  change SameOutcome _ (run (resolve .bundled none (.fieldUnion true) (createdConflict "bob" "\\ud800"))
    {}).result at hsame
  rw [hi] at hsame
  cases hout : (run (resolve .bundled none (.fieldUnion true) c) {}).result with
  | ok j => exact hours ⟨j, hout⟩
  | error f =>
      change SameOutcome (run (resolve .bundled none (.fieldUnion true) c) {}).result _ at hsame
      rw [hout] at hsame
      cases hsame

end Merge

end RecordStore
