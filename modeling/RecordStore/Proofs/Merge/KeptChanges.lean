import RecordStore.Proofs.Merge.Total

/-!
# RecordStore.Proofs.Merge.KeptChanges

Merging keeps every change (`mergeAll_keeps_changes`): what is stored for a conflict has, field by field,
the value on which the sides agree, or that of the side that changed it; and what both have changed comes
from one side, or is handed over.
-/

namespace RecordStore

open Procedure

namespace Merge

open Repository (Tidy record?)

variable {s : Session}

/-- **Merging keeps every change.** In a batch that comes to its end every conflict is settled or
handed over.  When its records can be read and belong together and it is settled, the stored record
has, field by field, the value on which the sides agree, the value of the side that alone changed it,
and where it is contested the value of one side, which is the later write for all contested fields.
A conflict of pages is handed over exactly when some field is contested, in a batch and on its own,
with the names of the contested fields in order; without an ancestor they are the fields in which the
sides differ. -/
theorem mergeAll_keeps_changes (hreg : s.registry = .bundled) (w : s.disk.WellFormed) (t : Tidy s.disk)
    (conflicts : List Conflict) :
    let o := run (mergeAll conflicts) (s, {})
    (∀ c ours theirs ancestor user l, Sides c ours theirs ancestor → c.kind = Kind.page.name →
      ((∃ e, (run (resolve .bundled user (.fieldUnion false) c) l).result = .error (.unresolvable e)) ↔
        ∃ key, Contested ours.payload.fields theirs.payload.fields
          (ancestor.map fun i => i.payload.fields) key))
      ∧ (∀ batch, o.result = .ok batch → o.state.2.resolutions.map Resolution.conflict = conflicts)
      ∧ ∀ x ∈ o.state.2.resolutions, ∀ ours theirs ancestor, Sides x.conflict ours theirs ancestor →
        let mine := ours.payload.fields
        let other := theirs.payload.fields
        let common := ancestor.map fun i => i.payload.fields
        (∀ i batch, x.outcome = .ok i → o.result = .ok batch → ∃ blob ms winner,
          Repository.read x.conflict.ident o.state.1.disk = .ok (some blob) ∧ Record.decode blob = .ok ms
            ∧ (winner = ours ∨ winner = theirs)
            ∧ ((∃ key, Contested mine other common key) → pickLater ours theirs x.conflict = .ok winner)
            ∧ ∀ key, Header.isField key = false →
              MergesTo mine other common winner.payload.fields key (valueOf ms key))
        ∧ (x.conflict.kind = Kind.page.name →
          (x.state = .escalated ↔ ∃ key, Contested mine other common key)
            ∧ ∀ e, x.outcome = .error e → e.fields.Pairwise (fun a b => a.ble b = true) ∧ e.fields.Nodup
              ∧ (∀ key, key ∈ e.fields ↔ Contested mine other common key)
              ∧ (ancestor = none → e.fields = fieldDiff mine other)) := by
  intro o
  have hyields := yields_run (mergeAll conflicts) (s, {})
  have settled : Repository.Settled (fun _ _ => True) (record? s.disk) s.disk :=
    ⟨w, t.represents, fun _ _ _ => trivial⟩
  have hall := mergeAll_yields hreg settled hyields
  refine ⟨fun c ours theirs ancestor user l h _ => ?_, fun batch hbatch => ?_,
    fun x hx ours theirs ancestor h => ⟨?_, fun hpage => ?_⟩⟩
  · have hiff := h.resolve_escalates_iff (yields_run (resolve .bundled user (.fieldUnion false) c) l)
    refine Iff.trans ⟨?_, fun hsome => ?_⟩ h.oneKind.contestedFields_ne_nil_iff
    · rintro ⟨e, he⟩
      exact ((hiff e).1 he).1
    · exact ⟨_, (hiff _).2 ⟨hsome, rfl⟩⟩
  · rcases hall with ⟨f, hr, -⟩ | ⟨f, hr, -⟩ | ⟨b, batch', d, n, sound, -, hst, -⟩
    · cases hbatch.symm.trans hr
    · cases hbatch.symm.trans hr
    · simp only [o, hst]
      exact sound.conflicts
  · intro i batch ho hbatch
    obtain ⟨winner, hwinner, hpick, hmerges⟩ := (comesFrom_mergeAll hreg hyields x hx).settled h ho
    rcases hall with ⟨f, hr, -⟩ | ⟨f, hr, -⟩ | ⟨b, batch', d, n, sound, -, hst, w', -⟩
    · cases hbatch.symm.trans hr
    · cases hbatch.symm.trans hr
    · have hdisk : o.state.1.disk = d := by simp only [o, hst]
      have hmem : x ∈ b.resolutions := by simpa only [o, hst, Batch.finished] using hx
      obtain ⟨hm, blob, hbytes, hread⟩ := sound.stored w' hmem ho
      obtain ⟨ms, hdecode, hvalue⟩ := valueOf_decode hm.regular hbytes
      refine ⟨blob, ms, winner, hdisk ▸ hread, hdecode, hwinner, fun hsome => ?_, fun key hkey => ?_⟩
      · exact hpick (h.oneKind.contestedFields_ne_nil_iff.2 hsome)
      · rw [hvalue key hkey]
        exact hmerges key
  · obtain ⟨hstate, hfields⟩ := (comesFrom_mergeAll hreg hyields x hx).escalated_page hpage h
    refine ⟨hstate.trans h.oneKind.contestedFields_ne_nil_iff, fun e he => ?_⟩
    rw [hfields e he]
    exact h.oneKind.contestedFields_spec

/-! ## Two conflicts of pages -/

/-- A conflict of pages of which one was changed. -/
def editedConflict : Conflict :=
  ⟨Kind.page.name, "c", some (pageRecord "c" "2"), some (pageRecord "c" "1"), some (pageRecord "c" "1"),
    "simple-@c.json", rfl⟩

/-- A conflict of pages that differ in their texts and have no ancestor. -/
def contestedConflict : Conflict :=
  ⟨Kind.page.name, "b", some (pageRecord "b" "1"), some (pageRecord "b" "2"), none, "simple-@b.json", rfl⟩

theorem sides_editedConflict : Sides editedConflict (unwrittenPage "c" "2") (unwrittenPage "c" "1")
    (some (unwrittenPage "c" "1")) := by
  have h₁ : (Registry.decodeItem (pageRecord "c" "1") .bundled).Yields () (.ok (unwrittenPage "c" "1")) () :=
    decodeItem_pageRecord (by cbv) rfl
  have h₂ : (Registry.decodeItem (pageRecord "c" "2") .bundled).Yields () (.ok (unwrittenPage "c" "2")) () :=
    decodeItem_pageRecord (by cbv) rfl
  exact ⟨⟨h₂, h₁, h₁.map some, ⟨rfl, rfl⟩, ⟨rfl, rfl⟩, by rintro _ ⟨⟩; exact ⟨rfl, rfl⟩⟩, rfl⟩

theorem sides_contestedConflict : Sides contestedConflict (unwrittenPage "b" "1") (unwrittenPage "b" "2")
    none := by
  have h₁ : (Registry.decodeItem (pageRecord "b" "1") .bundled).Yields () (.ok (unwrittenPage "b" "1")) () :=
    decodeItem_pageRecord (by cbv) rfl
  have h₂ : (Registry.decodeItem (pageRecord "b" "2") .bundled).Yields () (.ok (unwrittenPage "b" "2")) () :=
    decodeItem_pageRecord (by cbv) rfl
  exact ⟨⟨h₁, h₂, yields_pure _ _, ⟨rfl, rfl⟩, ⟨rfl, rfl⟩, by simp⟩, rfl⟩

theorem valueOf_unwrittenPage (ident text : Text) :
    valueOf (unwrittenPage ident text).payload.fields "text" = .str text := rfl

theorem contested_contestedConflict : Contested (unwrittenPage "b" "1").payload.fields
    (unwrittenPage "b" "2").payload.fields none "text" := by
  refine ⟨?_, by simp⟩
  rw [valueOf_unwrittenPage, valueOf_unwrittenPage]
  exact fun heq => absurd (Json.str.inj heq) (by decide)

theorem contestedFields_editedConflict :
    contestedFields (unwrittenPage "c" "2") (unwrittenPage "c" "1") (some (unwrittenPage "c" "1")) = [] := by
  by_contra hsome
  obtain ⟨key, -, hchanged⟩ := sides_editedConflict.oneKind.contestedFields_ne_nil_iff.1 hsome
  exact (hchanged _ rfl).2 rfl

/-- Where only one side has changed its text, this is the text that is stored; where both texts are new,
the conflict is handed over, in the batch and on its own. -/
theorem mergeAll_keeps_changes_pages : ∃ name s₁ b blob ms,
    (mergeAll [editedConflict, contestedConflict]).Yields (.starting Repository.oneRecord, {})
        (.ok name) (s₁, b)
      ∧ b.resolutions.map Resolution.state = [.resolved, .escalated]
      ∧ Repository.read "c" s₁.disk = .ok (some blob) ∧ Record.decode blob = .ok ms
      ∧ valueOf ms "text" = .str "2" ∧ valueOf ms "name" = .str "n"
      ∧ (∀ x ∈ b.resolutions, ∀ e, x.outcome = .error e → e.fields.Nodup
        ∧ ∀ key, key ∈ e.fields ↔ Contested (unwrittenPage "b" "1").payload.fields
          (unwrittenPage "b" "2").payload.fields none key)
      ∧ ∃ e, (run (resolve .bundled none (.fieldUnion false) contestedConflict) {}).result
        = .error (.unresolvable e) := by
  have hclean : ∀ ident text : String, (unwrittenPage ident text).Clean :=
    fun _ text => clean_unwrittenPage (Text.plain_ofString text)
  have hedited := sides_editedConflict
  have hcontested := sides_contestedConflict
  have huser : ∀ u ∈ (none : Option Text), u.Plain := nofun
  obtain ⟨x, hx, hxfrom⟩ := hedited.exists_resolution rfl (hclean _ _) (hclean _ _) huser rfl
    (by decide +kernel)
  obtain ⟨y, hy, hyfrom⟩ := hcontested.exists_resolution rfl (hclean _ _) (hclean _ _) huser rfl
    (by decide +kernel)
  have hxs : Sides x.conflict _ _ _ := hx ▸ hedited
  have hys : Sides y.conflict _ _ _ := hy ▸ hcontested
  obtain ⟨i, hi⟩ := hxfrom.settled_page (hx ▸ rfl) hxs contestedFields_editedConflict
  have hfrom : ∀ z ∈ [x, y], z.ComesFrom none :=
    List.forall_mem_cons.2 ⟨hxfrom, List.forall_mem_singleton.2 hyfrom⟩
  obtain ⟨name, b, d, n, hmerge, hb⟩ := writable_oneRecord.mergeAll_yields hfrom
    (by simp only [List.map_cons, List.map_nil, hx, hy]; decide)
    (by simp only [List.forall_mem_cons, hx, hy]; decide +kernel)
  rw [List.map_cons, List.map_cons, List.map_nil, hx, hy] at hmerge
  obtain ⟨halone, -, hbatch⟩ := mergeAll_keeps_changes (s := .starting Repository.oneRecord) rfl
    writable_oneRecord.wellFormed Repository.represents_oneRecord.tidy [editedConflict, contestedConflict]
  rw [hmerge.1, hmerge.2] at hbatch
  have hxb : x ∈ b.resolutions := by simp [hb]
  have hyb : y ∈ b.resolutions := by simp [hb]
  obtain ⟨blob, ms, winner, hread, hdecode, -, -, hmerges⟩ :=
    (hbatch x hxb _ _ _ hxs).1 i name hi rfl
  rw [hx] at hread
  obtain ⟨hstate, hfields⟩ := (hbatch y hyb _ _ _ hys).2 (hy ▸ rfl)
  have hyescalated : y.state = .escalated := hstate.2 ⟨_, contested_contestedConflict⟩
  have hxresolved : x.state = .resolved := by rw [Resolution.state, hi]
  refine ⟨name, _, b, blob, ms, hmerge, by simp [hb, hxresolved, hyescalated], hread, hdecode,
    (hmerges "text" (by decide)).changedByMine _ rfl rfl, (hmerges "name" (by decide)).agreed rfl, ?_, ?_⟩
  · intro z hz e he
    rw [hb] at hz
    rcases List.mem_pair.1 hz with rfl | rfl
    · cases hi.symm.trans he
    · exact ⟨(hfields e he).2.1, (hfields e he).2.2.1⟩
  · exact (halone _ _ _ none none {} hcontested rfl).2 ⟨_, contested_contestedConflict⟩

end Merge

end RecordStore
