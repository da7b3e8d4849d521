import RecordStore.Proofs.Merge.Independent

/-!
# RecordStore.Proofs.Merge.Total

Which conflicts are settled or handed over.  When the records of a conflict can be read and have no
lone surrogates, only two things can keep it from being either (`Baffles`): two times are compared of
which one has an offset and the other has none, or the revision that is counted up is too long to be
written.  One conflict with them ends the whole batch.  A batch without them is merged if the records
that are settled have names that files can have (`mergeAll_total`).
-/

namespace RecordStore

open Procedure

namespace Merge

open Record (Storable)

/-! ## What is needed -/

/-- What keeps two sides from being settled, when it is not that they are handed over. -/
inductive Baffles (tieBreak : Bool) (ours theirs : Item) (ancestor : Option Item) : Failure → Prop
  /-- The tie break compares the times of the last writes. -/
  | tie (hsome : contestedFields ours theirs ancestor ≠ []) (htie : tieBreak = true)
      (hrev : ours.header.revisionNumber = theirs.header.revisionNumber)
      (htime : (writeTime ours.header).offset.isSome ≠ (writeTime theirs.header).offset.isSome) :
      Baffles tieBreak ours theirs ancestor .incomparableTimes
  /-- The merged item takes the later of the two times. -/
  | later (hdecided : contestedFields ours theirs ancestor = [] ∨ tieBreak = true) {a b : Timestamp}
      (ha : ours.header.modifiedAt = some a) (hb : theirs.header.modifiedAt = some b)
      (htime : a.offset.isSome ≠ b.offset.isSome) :
      Baffles tieBreak ours theirs ancestor .incomparableTimes
  /-- The merged item has the next revision. -/
  | revision (hdecided : contestedFields ours theirs ancestor = [] ∨ tieBreak = true)
      (hlong : 10 ^ Json.digitLimit
        ≤ max ours.header.revisionNumber theirs.header.revisionNumber + 1) :
      Baffles tieBreak ours theirs ancestor .longInteger

/-- A conflict whose sides belong together can be neither settled nor handed over. -/
def Baffled (c : Conflict) (f : Failure) : Prop :=
  ∃ e tieBreak ours theirs ancestor, Registry.bundled.get c.kind = .ok e
    ∧ e.merge = .fieldUnion tieBreak ∧ Sides c ours theirs ancestor
    ∧ Baffles tieBreak ours theirs ancestor f

/-- The items of a conflict whose records can be read, whether they belong to it or not.  The sides
have no lone surrogates. -/
structure Readable (c : Conflict) (ours theirs : Item) (ancestor : Option Item) : Prop where
  readOurs : (Registry.decodeFound c.ours .bundled).Yields () (.ok ours) ()
  readTheirs : (Registry.decodeFound c.theirs .bundled).Yields () (.ok theirs) ()
  readAncestor : (Registry.decodeIfFound c.ancestor .bundled).Yields () (.ok ancestor) ()
  oursClean : ours.Clean
  theirsClean : theirs.Clean

/-- Settled, or handed over. -/
def Decided {α : Type} : Except Failure α → Prop
  | .ok _ => True
  | .error f => ∃ x, f = .unresolvable x

/-! ## Merged items -/

section Sides

variable {c : Conflict} {ours theirs winner : Item} {ancestor : Option Item} {user : Option Text}
  {tieBreak : Bool}

theorem storable_valueOf {ms : Members} (h : ∀ m ∈ ms, Storable m.2) (key : Text) :
    Storable (valueOf ms key) := by
  rw [valueOf]
  cases hv : ms.get? key with
  | none => trivial
  | some v => exact h _ (Members.mem_of_get? hv)

/-- A payload all of whose fields come from plain ones is plain. -/
theorem OneKind.plain_body (h : OneKind ours theirs ancestor) (ho : ours.payload.body.Plain)
    (ht : theirs.payload.body.Plain) (hw : winner = ours ∨ winner = theirs) {p : Payload}
    (hp : p.Bundled) (hmerges : ∀ key, MergesTo ours.payload.fields theirs.payload.fields
      (commonFields ancestor) winner.payload.fields key (valueOf p.fields key)) : p.body.Plain := by
  rw [Body.plain_iff, ← fields_of_bundled h.oursBundled] at ho
  rw [Body.plain_iff, ← fields_of_bundled h.theirsBundled] at ht
  rw [Body.plain_iff, ← fields_of_bundled hp]
  intro m hm
  have hvalue : valueOf p.fields m.1 = m.2 :=
    valueOf_of_get? ((Members.get?_eq_some_iff (nodup_keys_fields hp)).2 hm)
  rw [← hvalue]
  have hwinner : valueOf winner.payload.fields m.1 = valueOf ours.payload.fields m.1
      ∨ valueOf winner.payload.fields m.1 = valueOf theirs.payload.fields m.1 := by
    rcases hw with rfl | rfl
    · exact .inl rfl
    · exact .inr rfl
  rcases (hmerges m.1).eq_or_eq hwinner with heq | heq
  · rw [heq]
    exact storable_valueOf ho m.1
  · rw [heq]
    exact storable_valueOf ht m.1

/-- Sides with the same fields have none that is contested. -/
theorem OneKind.contestedFields_eq_nil (h : OneKind ours theirs ancestor)
    (heq : ours.payload.fields = theirs.payload.fields) : contestedFields ours theirs ancestor = [] := by
  by_contra hsome
  obtain ⟨key, hne, -⟩ := h.contestedFields_ne_nil_iff.1 hsome
  exact hne (by rw [heq])

theorem plainAuthor_mergedBy_of_plain (hu : ∀ u ∈ user, u.Plain) {old : Attribute (Option Text)}
    (hold : PlainAuthor old) : PlainAuthor (mergedBy user old) := by
  unfold mergedBy
  split
  · rintro _ ⟨⟩
    exact hu _ rfl
  · exact hold

/-- The fields of two sides are united, or else it is because of their times or for a person. -/
theorem OneKind.merge_total (h : OneKind ours theirs ancestor) (c : Conflict) (tieBreak : Bool) :
    (∃ p winner, (winner = ours ∨ winner = theirs)
        ∧ (contestedFields ours theirs ancestor = [] ∨ tieBreak = true)
        ∧ (contestedFields ours theirs ancestor ≠ [] → pickLater ours theirs c = .ok winner)
        ∧ (merge (.fieldUnion tieBreak) ours theirs ancestor c).Yields ()
          (.ok { ours with payload := p }) ()
        ∧ ∀ key, MergesTo ours.payload.fields theirs.payload.fields (commonFields ancestor)
          winner.payload.fields key (valueOf p.fields key))
      ∨ (contestedFields ours theirs ancestor ≠ [] ∧ tieBreak = false
        ∧ ∃ x, (merge (.fieldUnion tieBreak) ours theirs ancestor c).Yields ()
          (.error (.unresolvable x)) ())
      ∨ ∃ f, Baffles tieBreak ours theirs ancestor f
        ∧ (merge (.fieldUnion tieBreak) ours theirs ancestor c).Yields () (.error f) () := by
  by_cases hnone : contestedFields ours theirs ancestor = []
  · obtain ⟨p, hp, hmerges⟩ := h.unionFields_yields c tieBreak (.inl ⟨hnone, rfl⟩)
    exact .inl ⟨p, ours, .inl rfl, .inl hnone, fun hsome => absurd hnone hsome, hp, hmerges⟩
  · cases tieBreak with
    | false => exact .inr (.inl ⟨hnone, rfl, _, unionFields_yields_contested hnone⟩)
    | true =>
        cases hpick : pickLater ours theirs c with
        | error f =>
            obtain ⟨rfl, hrev, htime⟩ := pickLater_eq_error_iff.1 hpick
            exact .inr (.inr ⟨_, .tie hnone rfl hrev (Timestamp.compare?_eq_none_iff.1 htime),
              unionFields_yields_error hnone hpick⟩)
        | ok winner =>
            obtain ⟨p, hp, hmerges⟩ := h.unionFields_yields c true (.inr ⟨hnone, rfl, hpick⟩)
            exact .inl ⟨p, winner, (pickLater_ok hpick).symm, .inr rfl, fun _ => rfl, hp, hmerges⟩

/-- Without a later time there is no header. -/
theorem mergedHeader_eq_error {a b merged : Header} {f : Failure}
    (h : laterTime a.modifiedAt b.modifiedAt = .error f) : mergedHeader a b user merged = .error f := by
  rw [mergedHeader, h]
  rfl

/-- The header of what two sides are united to, whose later time is given. -/
def unitedHeader (user : Option Text) (ours theirs : Header) (time : Option Timestamp) : Header :=
  { ours with
    parentRevision := .value (some (max ours.revisionNumber theirs.revisionNumber))
    revision := .value (max ours.revisionNumber theirs.revisionNumber + 1)
    modifiedAt := time
    updatedBy := mergedBy user ours.updatedBy }

theorem mergedHeader_eq_ok {a b : Header} {time : Option Timestamp}
    (h : laterTime a.modifiedAt b.modifiedAt = .ok time) :
    mergedHeader a b user a = .ok (unitedHeader user a b time) := by
  rw [mergedHeader, h]
  rfl

/-- The revision of a united header is the one behind its parent. -/
theorem counted_unitedHeader {a b : Header} (ha : 0 ≤ a.revisionNumber) (time : Option Timestamp) :
    (unitedHeader user a b time).Counted := by
  refine ⟨_, by omega, rfl, .inr ?_⟩
  rw [Int.add_sub_cancel]
  rfl

/-- What two sides are united to has bytes, unless its revision is too long. -/
theorem Sides.bytes_united (h : Sides c ours theirs ancestor) (ho : ours.Clean) (ht : theirs.Clean)
    (hu : ∀ u ∈ user, u.Plain) {time : Option Timestamp}
    (hlater : laterTime ours.header.modifiedAt theirs.header.modifiedAt = .ok time) {p : Payload}
    (hmerge : (merge (.fieldUnion tieBreak) ours theirs ancestor c).Yields ()
      (.ok { ours with payload := p }) ()) (hw : winner = ours ∨ winner = theirs)
    (hmerges : ∀ key, MergesTo ours.payload.fields theirs.payload.fields (commonFields ancestor)
      winner.payload.fields key (valueOf p.fields key)) :
    let i : Item := { header := unitedHeader user ours.header theirs.header time, payload := p }
    if max ours.header.revisionNumber theirs.header.revisionNumber + 1 < 10 ^ Json.digitLimit then
      ∃ blob, i.bytes = .ok blob
    else
      i.bytes = .error .longInteger := by
  intro i
  have ro := regular_of_decodeFound h.readOurs
  have rt := regular_of_decodeFound h.readTheirs
  have rp := regular_of_merge ro.1 rt.1 hmerge
  have hi : i.Regular := (merged_of_mergedHeader ro rt h.oursMatches h.theirsMatches rp (.inl rfl)
    (mergedHeader_eq_ok hlater)).regular
  have hcounted : i.header.Counted := counted_unitedHeader ro.1.header.revisionNumber_nonneg time
  have hclean : i.Clean := ⟨ho.createdBy, plainAuthor_mergedBy_of_plain hu ho.updatedBy,
    h.oneKind.plain_body ho.body ht.body hw rp.payload hmerges⟩
  exact hi.bytes_of_clean hcounted hclean

/-- Nothing baffles two sides that have a winner, a later time and a next revision. -/
theorem not_baffles {f : Failure} {time : Option Timestamp}
    (hpick : contestedFields ours theirs ancestor ≠ [] → pickLater ours theirs c = .ok winner)
    (hlater : laterTime ours.header.modifiedAt theirs.header.modifiedAt = .ok time)
    (hlimit : max ours.header.revisionNumber theirs.header.revisionNumber + 1 < 10 ^ Json.digitLimit) :
    ¬ Baffles tieBreak ours theirs ancestor f := by
  intro hf
  cases hf with
  | tie hsome _ hrev htime =>
      have herror : pickLater ours theirs c = .error .incomparableTimes :=
        pickLater_eq_error_iff.2 ⟨rfl, hrev, Timestamp.compare?_eq_none_iff.2 htime⟩
      cases (hpick hsome).symm.trans herror
  | later _ ha hb htime =>
      have herror := laterTime_eq_error_iff.2
        ⟨rfl, _, ha, _, hb, Timestamp.compare?_eq_none_iff.2 htime⟩
      cases hlater.symm.trans herror
  | revision _ hlong => exact absurd hlimit (Int.not_lt.2 hlong)

/-- **Two sides** that belong together are settled or handed over, unless something baffles them. -/
theorem Sides.uniteSides_total (h : Sides c ours theirs ancestor) (ho : ours.Clean)
    (ht : theirs.Clean) (hu : ∀ u ∈ user, u.Plain) (tieBreak : Bool) :
    (∃ r, (uniteSides user (.fieldUnion tieBreak) c ours theirs ancestor).Yields () r () ∧ Decided r
        ∧ ∀ f, ¬ Baffles tieBreak ours theirs ancestor f)
      ∨ ∃ f, Baffles tieBreak ours theirs ancestor f
        ∧ (uniteSides user (.fieldUnion tieBreak) c ours theirs ancestor).Yields () (.error f) () := by
  have created := h.createdTogether
  rcases h.oneKind.merge_total c tieBreak with
    ⟨p, winner, hw, hdecided, hpick, hmerge, hmerges⟩ | ⟨hsome, rfl, x, hmerge⟩ | ⟨f, hf, hmerge⟩
  case inr.inl =>
    refine .inl ⟨_, uniteSides_yields_error created hmerge, ⟨x, rfl⟩, fun f hf => ?_⟩
    cases hf with
    | tie _ htie => cases htie
    | later hdecided | revision hdecided => exact hdecided.elim hsome nofun
  case inr.inr => exact .inr ⟨f, hf, uniteSides_yields_error created hmerge⟩
  cases hlater : laterTime ours.header.modifiedAt theirs.header.modifiedAt with
  | error f =>
      obtain ⟨rfl, a, ha, b, hb, htime⟩ := laterTime_eq_error_iff.1 hlater
      exact .inr ⟨_, .later hdecided ha hb (Timestamp.compare?_eq_none_iff.1 htime),
        uniteSides_yields_header_error created hmerge (mergedHeader_eq_error hlater)⟩
  | ok time =>
      have hheader : mergedHeader ours.header theirs.header user ours.header = .ok _ :=
        mergedHeader_eq_ok hlater
      have hbytes := h.bytes_united ho ht hu hlater hmerge hw hmerges
      dsimp only at hbytes
      split at hbytes
      · next hlimit =>
        obtain ⟨blob, hb⟩ := hbytes
        exact .inl ⟨_, uniteSides_yields_settled created hmerge hheader hb, trivial,
          fun f => not_baffles hpick hlater hlimit⟩
      · next hlimit =>
        exact .inr ⟨_, .revision hdecided (Int.not_lt.1 hlimit),
          uniteSides_yields_bytes_error created hmerge hheader hbytes⟩

end Sides

/-! ## One conflict -/

section Readable

variable {c : Conflict} {ours theirs : Item} {ancestor : Option Item} {user : Option Text}
  {policy : MergePolicy} {e : Registration} {f : Failure}

theorem checkSide_yields_foreign {side : Item} (h : ¬ (side.kind.name = c.kind ∧ side.ident = c.ident)) :
    ∃ x, (checkSide c side : Traced Unit).Yields () (.error (.unresolvable x)) () := by
  unfold checkSide
  rw [if_neg h]
  exact ⟨_, yields_fail _ _⟩

/-- Sides that do not belong together are handed over. -/
theorem Readable.sides_or_handedOver (h : Readable c ours theirs ancestor) (user : Option Text)
    (policy : MergePolicy) : Sides c ours theirs ancestor
      ∨ ∃ x, (settlement user policy c).Yields () (.error (.unresolvable x)) () := by
  have hread : ∀ {r : Except Failure (Item × Bytes)}
      {next : Item → Item → Option Item → Traced (Item × Bytes)},
      (next ours theirs ancestor).Yields () r () →
      (Registry.bundled.decodeFound c.ours >>= fun ours =>
        Registry.bundled.decodeFound c.theirs >>= fun theirs =>
        Registry.bundled.decodeIfFound c.ancestor >>= fun ancestor =>
        next ours theirs ancestor).Yields () r () :=
    fun hnext => h.readOurs.bind (h.readTheirs.bind (h.readAncestor.bind hnext))
  by_cases ho : ours.kind.name = c.kind ∧ ours.ident = c.ident
  case neg =>
    obtain ⟨x, hx⟩ := checkSide_yields_foreign ho
    exact .inr ⟨x, hread hx.bind_error⟩
  have hours := checkSide_yields_ok (σ := Unit) (s := ()) ho
  by_cases ht : theirs.kind.name = c.kind ∧ theirs.ident = c.ident
  case neg =>
    obtain ⟨x, hx⟩ := checkSide_yields_foreign ht
    exact .inr ⟨x, hread (hours.bind hx.bind_error)⟩
  have htheirs := checkSide_yields_ok (σ := Unit) (s := ()) ht
  by_cases ha : ∀ a ∈ ancestor, a.kind.name = c.kind ∧ a.ident = c.ident
  case neg =>
    obtain ⟨a, rfl, hforeign⟩ : ∃ a, ancestor = some a ∧ ¬ (a.kind.name = c.kind ∧ a.ident = c.ident) := by
      simpa using ha
    obtain ⟨x, hx⟩ := checkSide_yields_foreign hforeign
    exact .inr ⟨x, hread (hours.bind (htheirs.bind hx.bind_error))⟩
  have hmatching : Matching c ours theirs ancestor :=
    ⟨h.readOurs, h.readTheirs, h.readAncestor, ho, ht, ha⟩
  cases created : Header.sameTime ours.header.createdAt theirs.header.createdAt with
  | true => exact .inl ⟨hmatching, created⟩
  | false => exact .inr ⟨_, hmatching.settlement_yields (uniteSides_yields_apart created)⟩

/-- The records of a conflict have one reading. -/
theorem Sides.unique {ours' theirs' : Item} {ancestor' : Option Item} (h : Sides c ours theirs ancestor)
    (h' : Sides c ours' theirs' ancestor') : ours = ours' ∧ theirs = theirs' ∧ ancestor = ancestor' :=
  ⟨Except.ok.inj (h.readOurs.unique h'.readOurs).1, Except.ok.inj (h.readTheirs.unique h'.readTheirs).1,
    Except.ok.inj (h.readAncestor.unique h'.readAncestor).1⟩

/-- Nothing baffles sides without times, unless a revision is too long, when the rule of their kind has no
tie break or they agree in every field. -/
theorem Sides.not_baffled (h : Sides c ours theirs ancestor) (hget : Registry.bundled.get c.kind = .ok e)
    (hrule : e.merge = .fieldUnion false ∨ ours.payload.fields = theirs.payload.fields)
    (htime : ours.header.modifiedAt = none)
    (hlimit : max ours.header.revisionNumber theirs.header.revisionNumber + 1 < 10 ^ Json.digitLimit) :
    ∀ f, ¬ Baffled c f := by
  rintro f ⟨e', tieBreak, _, _, _, hget', hmerge, hsides, hf⟩
  obtain ⟨rfl, rfl, rfl⟩ := h.unique hsides
  cases hf with
  | tie hsome htie =>
      subst htie
      rcases hrule with hrule | hfields
      · rw [hget] at hget'
        cases hget'
        cases hrule.symm.trans hmerge
      · exact hsome (h.oneKind.contestedFields_eq_nil hfields)
  | later _ ha =>
      rw [htime] at ha
      cases ha
  | revision _ hlong => exact absurd hlimit (Int.not_lt.2 hlong)

/-- A settlement that is decided is what a batch says of its conflict. -/
theorem comesFrom_of_decided (hget : Registry.bundled.get c.kind = .ok e)
    {r : Except Failure (Item × Bytes)} (h : (settlement user e.merge c).Yields () r ())
    (hd : Decided r) : ∃ x : Resolution, x.conflict = c ∧ x.ComesFrom user := by
  cases r with
  | ok merged =>
      obtain ⟨i, blob⟩ := merged
      have happend : (ChangeList.append (.update i.kind.name i.ident blob)).Yields {} (.ok ()) _ :=
        ChangeList.append_yields ⟨rfl, rfl⟩
      exact ⟨⟨c, e.merge, .ok i⟩, rfl, e, {}, _, hget, rfl, resolve_yields_settled h happend⟩
  | error f =>
      obtain ⟨x, rfl⟩ := hd
      exact ⟨⟨c, e.merge, .error x⟩, rfl, e, {}, _, hget, rfl, resolve_yields_error h⟩

/-- **One conflict** that can be read is settled or handed over, unless something baffles it. -/
theorem Readable.total (h : Readable c ours theirs ancestor) (hu : ∀ u ∈ user, u.Plain)
    (hget : Registry.bundled.get c.kind = .ok e) :
    (∃ x : Resolution, x.conflict = c ∧ x.ComesFrom user ∧ ∀ f, ¬ Baffled c f)
      ∨ ∃ f, Baffled c f ∧ (settlement user e.merge c).Yields () (.error f) () := by
  obtain ⟨tieBreak, hmerge⟩ : ∃ tieBreak, e.merge = .fieldUnion tieBreak := by
    rcases Registry.get_bundled_ok hget with ⟨-, rfl⟩ | ⟨-, rfl⟩
    · exact ⟨false, rfl⟩
    · exact ⟨true, rfl⟩
  have hdecided : ∀ {r : Except Failure (Item × Bytes)}, (settlement user e.merge c).Yields () r () →
      Decided r → (∀ f, ¬ Baffled c f) →
      ∃ x : Resolution, x.conflict = c ∧ x.ComesFrom user ∧ ∀ f, ¬ Baffled c f := by
    intro r hr hd hnot
    obtain ⟨x, hx, hfrom⟩ := comesFrom_of_decided hget hr hd
    exact ⟨x, hx, hfrom, hnot⟩
  by_cases hsides : Sides c ours theirs ancestor
  · rcases hsides.uniteSides_total h.oursClean h.theirsClean hu tieBreak with
      ⟨r, hr, hd, hnot⟩ | ⟨f, hf, hr⟩
    · rw [← hmerge] at hr
      refine .inl (hdecided (hsides.settlement_yields hr) hd ?_)
      rintro f ⟨e', tieBreak', ours', theirs', ancestor', hget', hmerge', hsides', hf⟩
      obtain ⟨rfl, rfl, rfl⟩ := hsides.unique hsides'
      rw [hget] at hget'
      cases hget'
      rw [hmerge] at hmerge'
      cases hmerge'
      exact hnot f hf
    · rw [← hmerge] at hr
      exact .inr ⟨f, ⟨e, tieBreak, ours, theirs, ancestor, hget, hmerge, hsides, hf⟩,
        hsides.settlement_yields hr⟩
  · obtain ⟨x, hx⟩ := (h.sides_or_handedOver user e.merge).resolve_left hsides
    refine .inl (hdecided hx ⟨x, rfl⟩ ?_)
    rintro f ⟨_, _, ours', theirs', ancestor', -, -, hsides', -⟩
    have hours := Except.ok.inj (h.readOurs.unique hsides'.readOurs).1
    have htheirs := Except.ok.inj (h.readTheirs.unique hsides'.readTheirs).1
    have hancestor := Except.ok.inj (h.readAncestor.unique hsides'.readAncestor).1
    subst hours htheirs hancestor
    exact hsides hsides'

/-- Two pages without times that can be read are settled or handed over. -/
theorem Sides.exists_resolution (h : Sides c ours theirs ancestor) (hpage : c.kind = Kind.page.name)
    (ho : ours.Clean) (ht : theirs.Clean) (hu : ∀ u ∈ user, u.Plain)
    (htime : ours.header.modifiedAt = none)
    (hlimit : max ours.header.revisionNumber theirs.header.revisionNumber + 1 < 10 ^ Json.digitLimit) :
    ∃ x : Resolution, x.conflict = c ∧ x.ComesFrom user := by
  have hget : Registry.bundled.get c.kind = .ok _ := hpage ▸ Registry.get_bundled_page
  have hreadable : Readable c ours theirs ancestor := ⟨h.readOurs, h.readTheirs, h.readAncestor, ho, ht⟩
  rcases hreadable.total hu hget with ⟨x, hx, hfrom, -⟩ | ⟨f, hf, -⟩
  · exact ⟨x, hx, hfrom⟩
  · exact absurd hf (h.not_baffled hget (.inl rfl) htime hlimit f)

end Readable

/-! ## Several conflicts -/

section Batch

variable {b : Batch} {c : Conflict} {conflicts done : List Conflict} {user : Option Text} {f : Failure}

/-- A conflict with something baffling ends the batch. -/
theorem resolveOne_yields_error {e : Registration} (hget : Registry.bundled.get c.kind = .ok e)
    (hf : Baffled c f) (h : (settlement user e.merge c).Yields () (.error f) ()) :
    (resolveOne .bundled user c).Yields b (.error f) b := by
  have hneither : ∀ x, f ≠ .unresolvable x := by
    rintro x rfl
    obtain ⟨_, _, _, _, _, -, -, -, hf⟩ := hf
    cases hf
  exact (Taken.ended hget hneither (resolve_yields_error h)).yields

/-- **Run.** Conflicts that can be read are settled or handed over, one after the other, up to the
first with something baffling. -/
theorem resolveAll_total (sound : b.Sound done) (hu : ∀ u ∈ user, u.Plain)
    (hnodup : ((done ++ conflicts).map Conflict.ident).Nodup)
    (hread : ∀ c ∈ conflicts, (∃ e, Registry.bundled.get c.kind = .ok e)
      ∧ ∃ ours theirs ancestor, Readable c ours theirs ancestor) :
    (∃ b', (resolveAll .bundled user conflicts).Yields b (.ok ()) b'
        ∧ ∀ c ∈ conflicts, ∀ f, ¬ Baffled c f)
      ∨ ∃ c ∈ conflicts, ∃ f b', Baffled c f
        ∧ (resolveAll .bundled user conflicts).Yields b (.error f) b' := by
  induction conflicts generalizing b done with
  | nil => exact .inl ⟨b, yields_pure () b, by simp⟩
  | cons c cs ih =>
      obtain ⟨⟨e, hget⟩, ours, theirs, ancestor, h⟩ := hread c List.mem_cons_self
      rcases h.total hu hget with ⟨x, rfl, hx, hnot⟩ | ⟨f, hf, hr⟩
      · obtain ⟨b₁, hone⟩ := resolveOne_yields hx (sound.takes (ident_not_mem_of_nodup hnodup))
        rcases ih (sound.resolveOne hone) (by simpa using hnodup)
          (fun c hc => hread c (List.mem_cons_of_mem _ hc)) with
          ⟨b', hall, hnone⟩ | ⟨c, hc, f, b', hf, hall⟩
        · exact .inl ⟨b', hone.bind hall, List.forall_mem_cons.2 ⟨hnot, hnone⟩⟩
        · exact .inr ⟨c, List.mem_cons_of_mem _ hc, f, b', hf, hone.bind hall⟩
      · exact .inr ⟨c, List.mem_cons_self, f, b, hf, (resolveOne_yields_error hget hf hr).bind_error⟩

end Batch

/-! ## Merging -/

section MergeAll

variable {s : Session} {conflicts : List Conflict}

/-- What merging conflicts that can be read comes to. -/
theorem Writable.mergeAll_cases (hs : Writable s) (hnodup : (conflicts.map Conflict.ident).Nodup)
    (hread : ∀ c ∈ conflicts, (∃ e, Registry.bundled.get c.kind = .ok e)
      ∧ ∃ ours theirs ancestor, Readable c ours theirs ancestor) :
    (∃ name s' b, (mergeAll conflicts).Yields (s, {}) (.ok name) (s', b)
        ∧ b.resolutions.map Resolution.conflict = conflicts ∧ (∀ c ∈ conflicts, ∀ f, ¬ Baffled c f)
        ∧ ∀ x ∈ b.resolved, x.conflict.Storable)
      ∨ (∃ c ∈ conflicts, ∃ f b, Baffled c f
        ∧ (mergeAll conflicts).Yields (s, {}) (.error f) (s, b))
      ∨ ∃ f s' b, (mergeAll conflicts).Yields (s, {}) (.error f) (s', b)
        ∧ b.resolutions.map Resolution.conflict = conflicts ∧ ∃ x ∈ b.resolved, ¬ x.conflict.Storable := by
  rcases resolveAll_total sound_empty hs.user hnodup hread with ⟨b, hall, hnot⟩ | ⟨c, hc, f, b, hf, hall⟩
  case inr =>
    rw [← hs.registry] at hall
    exact .inr (.inl ⟨c, hc, f, b, hf, (Ends.unsettled hs.opened hall).yields⟩)
  have sound : b.Sound conflicts := sound_empty.resolveAll hall
  rw [← hs.registry] at hall
  by_cases hnames : ∀ x ∈ b.resolved, x.conflict.Storable
  · have hstorable := sound.storable hnames
    have hadmits := Repository.admits_of_noDirectory hs.noDirectory hs.noFile hstorable.valid hstorable.fits
    obtain ⟨name, d, n, hflush, -, -⟩ :=
      flush_applied hs.wellFormed sound.pending sound.proper hs.namesFree hadmits
    have hmerge := mergeAll_yields_ok_iff.2 ⟨hs.opened, hs.attached, b, _, hall, hflush, rfl⟩
    exact .inl ⟨name, _, _, hmerge, sound.conflicts, hnot, hnames⟩
  · rcases error_or_ok ChangeList.flush (s, b.changes) with ⟨f, _, hflush⟩ | ⟨name, _, hflush⟩
    · have hmerge := (Ends.unwritten hs.opened hs.attached hall hflush).yields
      exact .inr (.inr ⟨f, _, b, hmerge, sound.conflicts, by simpa using hnames⟩)
    · have hstorable := storable_of_flush hs.wellFormed sound.pending sound.proper sound.kept hflush
      exact absurd (sound.names_of_fits hstorable.fits) hnames

/-- **Settled or handed over.** Conflicts whose records can be read are merged exactly when nothing
baffles any of them, and the records that are settled have names that files can have: then there is one
resolution for each.  Otherwise the batch fails with what baffles one of them, or else over such a
name, when all of them are settled or handed over. -/
theorem mergeAll_total (hs : Writable s) (hnodup : (conflicts.map Conflict.ident).Nodup)
    (hread : ∀ c ∈ conflicts, (∃ e, Registry.bundled.get c.kind = .ok e)
      ∧ ∃ ours theirs ancestor, Readable c ours theirs ancestor) :
    let o := run (mergeAll conflicts) (s, {})
    let b := o.state.2
    ((∃ name, o.result = .ok name) ↔
        (∀ c ∈ conflicts, ∀ f, ¬ Baffled c f) ∧ ∀ x ∈ b.resolved, x.conflict.Storable)
      ∧ (∀ name, o.result = .ok name → b.resolutions.map Resolution.conflict = conflicts)
      ∧ ∀ f, o.result = .error f → (∃ c ∈ conflicts, Baffled c f)
        ∨ b.resolutions.map Resolution.conflict = conflicts
          ∧ ∃ x ∈ b.resolved, ¬ x.conflict.Storable := by
  intro o b
  rcases hs.mergeAll_cases hnodup hread with
    ⟨name, s', b', h, hconflicts, hnot, hnames⟩ | ⟨c, hc, f, b', hf, h⟩ | ⟨f, s', b', h, hconflicts, hbad⟩
  · have hresult : o.result = .ok name := h.1
    have hb : b = b' := congrArg Prod.snd h.2
    rw [hresult, hb]
    exact ⟨iff_of_true ⟨name, rfl⟩ ⟨hnot, hnames⟩, fun _ _ => hconflicts, nofun⟩
  · have hresult : o.result = .error f := h.1
    rw [hresult]
    refine ⟨iff_of_false nofun fun hall => hall.1 c hc f hf, nofun, ?_⟩
    rintro _ ⟨⟩
    exact .inl ⟨c, hc, hf⟩
  · have hresult : o.result = .error f := h.1
    have hb : b = b' := congrArg Prod.snd h.2
    rw [hresult, hb]
    refine ⟨iff_of_false nofun fun hall => ?_, nofun, fun _ _ => .inr ⟨hconflicts, hbad⟩⟩
    obtain ⟨x, hx, hname⟩ := hbad
    exact hname (hall.2 x hx)

end MergeAll

/-! ## Two tasks, and two pages of one time -/

/-- Two tasks with different creators are merged. -/
theorem mergeAll_total_tasks :
    let o := run (mergeAll [createdConflict "ann" "bob"]) (.starting Repository.oneRecord, {})
    (∃ name, o.result = .ok name)
      ∧ o.state.2.resolutions.map Resolution.conflict = [createdConflict "ann" "bob"] := by
  have hclean : ∀ author : String, (createdTask author).Clean := by
    refine fun author => ⟨?_, nofun, ⟨[], rfl⟩, ⟨[], rfl⟩, ⟨[], rfl⟩⟩
    rintro _ ⟨⟩
    exact Text.plain_ofString author
  have h := creates_ann.matching creates_bob
  have hsides : Sides (createdConflict "ann" "bob") (createdTask "ann") (createdTask "bob") none :=
    ⟨h, rfl⟩
  have hread : ∀ c ∈ [createdConflict "ann" "bob"], (∃ e, Registry.bundled.get c.kind = .ok e)
      ∧ ∃ ours theirs ancestor, Readable c ours theirs ancestor := by
    rintro _ hc
    obtain rfl := List.mem_singleton.1 hc
    exact ⟨⟨_, Registry.get_bundled_task⟩, _, _, _, h.readOurs, h.readTheirs, h.readAncestor,
      hclean "ann", hclean "bob"⟩
  have hnot : ∀ c ∈ [createdConflict "ann" "bob"], ∀ f, ¬ Baffled c f := by
    rintro _ hc
    obtain rfl := List.mem_singleton.1 hc
    exact hsides.not_baffled Registry.get_bundled_task (.inr rfl) rfl (by decide +kernel)
  obtain ⟨-, hconflicts, herror⟩ := mergeAll_total writable_oneRecord (by simp) hread
  rcases error_or_ok (mergeAll [createdConflict "ann" "bob"]) (.starting Repository.oneRecord, {}) with
    ⟨f, st, hmerge⟩ | ⟨name, st, hmerge⟩
  · rcases herror f hmerge.1 with ⟨c, hc, hf⟩ | ⟨hall, x, hx, hname⟩
    · exact absurd hf (hnot c hc f)
    · have hmem := Batch.conflict_mem hx
      rw [hall, List.mem_singleton] at hmem
      exact absurd (hmem ▸ storable_twoConflicts _ List.mem_cons_self) hname
  · exact ⟨⟨name, hmerge.1⟩, hconflicts name hmerge.1⟩

/-- The first instant of a year, with an offset or without. -/
def newYear (offset : Option Int) : Timestamp :=
  ⟨⟨2026, 1, 1, by decide⟩, 0, 0, offset, Timestamp.earliest.second_lt,
    Timestamp.earliest.microsecond_lt⟩

/-- A page that was written at that time. -/
def timedPage (offset : Option Int) : Item where
  header := { Header.fresh "a" (.word Kind.page.name) with
    revision := .value 2, modifiedAt := some (newYear offset) }
  payload := { kind := .page, body := .page { name := "x", text := "y" } }

/-- The record of such a page, the offset given as it stands behind the time. -/
def timedRecord (offset : String) : Bytes :=
  Utf8.encodeChars ("\x7b\"ident\":\"a\",\"kind\":\"simple\",\"name\":\"x\",\"text\":\"y\",".toList
    ++ "\"revision\":2,\"modified_at\":\"2026-01-01T00:00:00".toList ++ offset.toList
    ++ "\"\x7d".toList)

/-- The members of that record. -/
def timedMembers (time : Text) : Members :=
  [("ident", .str "a"), ("kind", .str "simple"), ("name", .str "x"), ("text", .str "y"),
    ("revision", .int 2), ("modified_at", .str time)]

/-- The conflict of two such pages, one of which has an offset. -/
def timedConflict : Conflict :=
  ⟨Kind.page.name, "a", some (timedRecord ""), some (timedRecord "+00:00"), none, "simple-@a.json", rfl⟩

theorem split_timedMembers {time : String} {offset : Option Int}
    (h : Schema.timeOfText time.toList = .ok (newYear offset)) :
    Record.split (timedMembers time)
      = .ok ((timedPage offset).header, (timedPage offset).payload.fields) := by
  have htime : Header.field "modified_at" (.ok none) Schema.time (timedMembers time)
      = .ok (some (newYear offset)) := by
    change Schema.time (.str (Text.ofChars time.toList)) = _
    rw [Schema.time, Text.toChars?_ofChars]
    simp only [h]
    rfl
  have hheader : Header.ofMembers (timedMembers time) = .ok (timedPage offset).header := by
    rw [Header.ofMembers, htime]
    rfl
  have hpayload : Record.payloadPart (timedMembers time) = (timedPage offset).payload.fields := rfl
  rw [Record.split, hpayload, hheader]
  rfl

theorem readable_timedConflict :
    Readable timedConflict (timedPage none) (timedPage (some 0)) none := by
  have hread : ∀ {s : String} {offset : Option Int},
      Record.decode (timedRecord s) = .ok (timedMembers ("2026-01-01T00:00:00" ++ s : String)) →
      Schema.timeOfText ("2026-01-01T00:00:00" ++ s).toList = .ok (newYear offset) →
      (Registry.decodeFound (some (timedRecord s)) .bundled).Yields () (.ok (timedPage offset)) () :=
    fun hd ht => decodeItem_yields hd (split_timedMembers ht) Registry.get_bundled_page
  have hclean : ∀ offset, (timedPage offset).Clean :=
    fun offset => ⟨nofun, nofun, Text.plain_ofString "x", Text.plain_ofString "y"⟩
  exact ⟨hread (by cbv) (by decide +kernel), hread (by cbv) (by decide +kernel), yields_pure _ _,
    hclean none, hclean (some 0)⟩

theorem get_timedConflict :
    Registry.bundled.get timedConflict.kind = .ok ⟨.page, .page, .fieldUnion false⟩ := by
  have hkind : timedConflict.kind = Kind.page.name := rfl
  rw [hkind]
  exact Registry.get_bundled_page

theorem sides_timedConflict : Sides timedConflict (timedPage none) (timedPage (some 0)) none := by
  have h := readable_timedConflict
  exact ⟨⟨h.readOurs, h.readTheirs, h.readAncestor, ⟨rfl, rfl⟩, ⟨rfl, rfl⟩, by simp⟩, rfl⟩

theorem baffles_timedPage :
    Baffles false (timedPage none) (timedPage (some 0)) none .incomparableTimes :=
  .later (.inl (sides_timedConflict.oneKind.contestedFields_eq_nil rfl)) rfl rfl (by decide)

theorem settlement_timedConflict :
    (settlement none (.fieldUnion false) timedConflict).Yields () (.error .incomparableTimes) () := by
  have hsides := sides_timedConflict
  have hnone := hsides.oneKind.contestedFields_eq_nil rfl
  obtain ⟨p, hunion, -⟩ := hsides.oneKind.unionFields_yields timedConflict false (.inl ⟨hnone, rfl⟩)
  have hmerge : (merge (.fieldUnion false) (timedPage none) (timedPage (some 0)) none
      timedConflict).Yields () (.ok { timedPage none with payload := p }) () := hunion
  have hlater : laterTime (some (newYear none)) (some (newYear (some 0))) = .error .incomparableTimes :=
    laterTime_eq_error_iff.2 ⟨rfl, _, rfl, _, rfl, Timestamp.compare?_eq_none_iff.2 (by decide)⟩
  exact hsides.settlement_yields (uniteSides_yields_header_error hsides.createdTogether hmerge
    (mergedHeader_eq_error hlater))

/-- The two pages agree in all their fields.  Yet they are neither settled nor handed over: of their
times only one has an offset, so that there is no later one. -/
theorem mergeAll_total_incomparable :
    Writable (.starting Repository.oneRecord)
      ∧ (∃ e, Registry.bundled.get timedConflict.kind = .ok e)
      ∧ Readable timedConflict (timedPage none) (timedPage (some 0)) none
      ∧ (run (mergeAll [timedConflict]) (.starting Repository.oneRecord, {})).result
        = .error .incomparableTimes := by
  have hbaffled : Baffled timedConflict .incomparableTimes :=
    ⟨_, false, _, _, _, get_timedConflict, rfl, sides_timedConflict, baffles_timedPage⟩
  have hone := resolveOne_yields_error (b := {}) get_timedConflict hbaffled settlement_timedConflict
  have hall : (resolveAll .bundled none [timedConflict]).Yields {} (.error .incomparableTimes) {} :=
    hone.bind_error
  have hmerge := (Ends.unsettled (s := .starting Repository.oneRecord) rfl hall).yields
  exact ⟨writable_oneRecord, ⟨_, get_timedConflict⟩, readable_timedConflict, hmerge.1⟩

end Merge

end RecordStore
