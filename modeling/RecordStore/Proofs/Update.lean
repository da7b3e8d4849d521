import Mathlib
import RecordStore.Proofs.Clean
import RecordStore.Proofs.Unchanged

/-!
# RecordStore.Proofs.Update

What an update writes.  A record is found under the identifier in the name of its file, and written
under the identifier that stands in it (`update_yields_ok`).  Where no identifier has two record files,
exactly the record of the latter is replaced (`update_replaces`).  The two identifiers agree for all
that is written here; they need not for a file that came from elsewhere, which may even hold one that
leads out of the directory of the records.
-/

namespace RecordStore

open Procedure
open RecordName (Valid file)

/-! ## One record file for an identifier -/

namespace Repository

variable {d d' : Disk} {c : Change} {data : Bytes}

/-- A repository in which no identifier has two record files.  A directory may have the name of one. -/
def OneFile (d : Disk) : Prop :=
  ∀ {kind kind' ident}, Valid kind ident → Valid kind' ident →
    d.holds [file kind ident] = true → d.holds [file kind' ident] = true → kind = kind'

/-- Where nothing is in the way of storing a record, the record file of its identifier is a file. -/
theorem OneFile.exists_recordNode (one : OneFile d) (hclear : Clear c (some (.file data)) d) :
    ∃ v?, ∀ k, Valid k c.ident → d.node? [file k c.ident] = recordNode v? k := by
  cases hf : find? c.ident d with
  | none => exact ⟨none, find?_eq_none_iff.1 hf⟩
  | some f =>
      obtain ⟨hv, hname, -, n, hn⟩ := exists_of_find? hf
      have hnone : n ≠ .directory := by
        rintro rfl
        by_cases hkind : f.name = file c.kind c.ident
        · exact hclear.target nofun (hkind ▸ hn)
        · exact hclear.outdated f (Option.filter_eq_some_iff.2 ⟨hf, by simp [hkind]⟩) hn
      obtain ⟨bytes, rfl⟩ : ∃ bytes, n = .file bytes := by
        cases n with
        | directory => exact absurd rfl hnone
        | file bytes => exact ⟨bytes, rfl⟩
      refine ⟨some (f.kind, bytes), fun k hk => ?_⟩
      rw [recordNode_some]
      by_cases hkind : f.kind = k
      · rw [if_pos hkind, ← hkind, ← hname, hn]
      · rw [if_neg hkind]
        by_contra hsome
        exact hkind (one hv hk (Disk.holds_iff.2 ⟨_, hname ▸ hn⟩)
          (Disk.holds_iff.2 (Option.ne_none_iff_exists'.1 hsome)))

/-- The record of an identifier is replaced, and no other. -/
structure Replaces (d : Disk) (ident : Text) (v : Text × Bytes) (d' : Disk) : Prop where
  self : read ident d' = .ok (some v.2)
  other : ∀ other, other ≠ ident → read other d' = read other d
  record : record? d' = Function.update (record? d) ident (some v)

/-- A change that stores a record replaces the one of its identifier. -/
theorem Applied.replaces (h : Applied [c] d d') (one : OneFile d) (ha : Admits [c] d)
    (hc : Valid c.kind c.ident) (hdata : c.data? = some data) :
    Replaces d c.ident (c.kind, data) d' := by
  have hclear := ha.clear c List.mem_cons_self
  rw [hdata] at hclear
  obtain ⟨v?, hnode⟩ := one.exists_recordNode hclear
  have hself := fun k hk => (h.record c List.mem_cons_self k hk).trans (leaves_eq_stored hc hnode hk)
  rw [Change.stored, hdata] at hself
  obtain ⟨hread, hrecord⟩ := reads_of_recordNode (v := (c.kind, data)) hc hself
  have hother : ∀ other, other ≠ c.ident → ∀ k, Valid k other →
      d'.node? [file k other] = d.node? [file k other] := by
    intro other hne k hk
    refine h.other _ (fun _ => by simpa [pending] using file_ne_pendingName hk) ?_
    intro c' hc' k' hk'
    rw [List.mem_singleton] at hc'
    subst hc'
    exact singleton_file_ne hk hk' (.inl hne)
  refine ⟨hread, fun other hne => read_congr (hother other hne), funext fun other => ?_⟩
  by_cases hne : other = c.ident
  · rw [hne, Function.update_self, hrecord]
  · rw [Function.update_of_ne hne, record?_congr (hother other hne)]

end Repository

/-! ## What is handed over -/

/-- A registry whose kinds can stand in the name of a record file. -/
def Registry.Fileable (r : Registry) : Prop :=
  ∀ kind, r.has kind = true → ¬ RecordName.separator <:+: kind ∧ .char '/' ∉ kind

theorem Registry.fileable_bundled : Registry.bundled.Fileable := by
  intro kind h
  obtain ⟨e, he⟩ := exists_get_of_has h
  rcases get_bundled_ok he with ⟨rfl, -⟩ | ⟨rfl, -⟩ <;> decide

/-- Kind and identifier of what was read make the name of a record file, and no slash comes from the
kind. -/
theorem Registry.Fileable.valid {r : Registry} (hr : r.Fileable) {blob : Bytes} {item : Item}
    (h : (r.decodeItem blob).Yields () (.ok item) ()) :
    Valid item.kind.name item.ident ∧ .char '/' ∉ item.kind.name := by
  obtain ⟨ms, data, hd, hs⟩ := split_of_decodeItem h
  have rh := (Header.regular_of_ofMembers (header_of_split hs).1).1
  suffices hhas : r.has item.kind.name = true from
    ⟨⟨rh.kind.2, (hr _ hhas).1, rh.ident.2⟩, (hr _ hhas).2⟩
  obtain ⟨ms', _, hd', h⟩ := yields_bind_ok_iff.1 h
  obtain ⟨⟨h', data'⟩, _, hs', hget⟩ := yields_bind_ok_iff.1 h
  obtain ⟨e, _, he, -⟩ := yields_bind_ok_iff.1 hget
  obtain rfl : ms' = ms := Except.ok.inj ((yields_ofExcept_iff.1 hd').1.trans hd)
  obtain ⟨rfl, rfl⟩ := Prod.mk.inj (Except.ok.inj ((yields_ofExcept_iff.1 hs').1.trans hs))
  exact has_of_get (yields_ofExcept_iff.1 he).1.symm

/-! ## Updating -/

namespace Store

variable {s s₁ s' : Session} {i item : Item} {ident : Text} {op : Operation} {form : Form}

/-- What is found was read from the record file of the identifier. -/
theorem find_yields_ok (h : (find ident).Yields s (.ok item) s₁) : s₁ = s ∧
    ∃ found, Repository.read ident s.disk = .ok (some found)
      ∧ (s.registry.decodeItem found).Yields () (.ok item) () := by
  obtain ⟨_, s₂, hready, hlook⟩ := yields_bind_ok_iff.1 h
  obtain ⟨-, rfl⟩ := hready.unique (requireRepository_yields s)
  obtain ⟨blob?, s₃, hread, hdecode⟩ := yields_bind_ok_iff.1 hlook
  obtain ⟨hread, rfl⟩ := hread.unique (lookUp_yields _)
  cases blob? with
  | none => cases (yields_fail_iff.1 hdecode).1
  | some found =>
      have hdecode := yields_state_bind_iff.1 hdecode
      obtain ⟨hitem, rfl⟩ := yields_lift_iff.1 hdecode
      exact ⟨rfl, found, hread.symm, hitem⟩

/-- A stamp does not change the names of an item. -/
theorem names_of_stamp {user : Option Text} {now : Timestamp}
    (h : (Item.stamp user now).Yields item (.ok ()) i) : i.ident = item.ident ∧ i.kind = item.kind := by
  obtain ⟨_, item₁, hnote, hcount⟩ := yields_bind_ok_iff.1 h
  obtain ⟨-, rfl⟩ := hnote.unique (yields_modify _ item)
  have hcount := yields_state_bind_iff.1 hcount
  dsimp only at hcount
  cases hheader : (item.header.notePast user now).countUp? user now with
  | none =>
      rw [hheader] at hcount
      cases (yields_fail_iff.1 hcount).1
  | some header =>
      rw [hheader] at hcount
      obtain ⟨-, rfl⟩ := hcount.unique (yields_put _ _)
      obtain ⟨revision, -, rfl⟩ := Option.map_eq_some_iff.1 hheader
      have hpast : (item.header.notePast user now).ident = item.ident
          ∧ (item.header.notePast user now).kind = item.kind := by
        unfold Header.notePast
        split <;> exact ⟨rfl, rfl⟩
      exact hpast

/-- An item that is saved is handed over under its names. -/
theorem save_yields_ok {st : Session × Item} (h : (save op).Yields (s, item) (.ok ()) st) :
    ∃ s₁, s₁.disk = s.disk ∧ st.2.ident = item.ident ∧ st.2.kind = item.kind
      ∧ (handOver st.2 op).Yields s₁ (.ok ()) st.1 := by
  obtain ⟨_, st₁, hstamp, hrest⟩ := yields_bind_ok_iff.1 (yields_state_bind_iff.1 h)
  have hdisk := stamp_keeps _ _ _ _ hstamp
  obtain ⟨now, st₂, hclock, hitem⟩ := yields_bind_ok_iff.1 hstamp
  obtain ⟨s₂, -, rfl⟩ := yields_onFirst_iff.1 hclock
  obtain ⟨item₁, hstamped, rfl⟩ := yields_onSecond_iff.1 hitem
  obtain ⟨_, st₃, hfirst, hreport⟩ := yields_bind_ok_iff.1 (yields_state_bind_iff.1 hrest)
  obtain ⟨s₃, hhand, rfl⟩ := yields_onFirst_iff.1 hfirst
  obtain ⟨-, rfl⟩ := hreport.unique (yields_report _ _)
  obtain ⟨hident, hkind⟩ := names_of_stamp hstamped
  exact ⟨s₂, hdisk, hident, hkind, hhand⟩

/-- Input that is taken over does not change the names of an item. -/
theorem writeInput_yields_ok {st : Session × Item}
    (h : (writeInput form op).Yields (s, item) (.ok ()) st) :
    ∃ s₁, s₁.disk = s.disk ∧ st.2.ident = item.ident ∧ st.2.kind = item.kind
      ∧ (handOver st.2 op).Yields s₁ (.ok ()) st.1 := by
  obtain ⟨_, st₁, hcheck, hrest⟩ := yields_bind_ok_iff.1 (yields_state_bind_iff.1 h)
  obtain ⟨s₁, hlook, rfl⟩ := yields_onFirst_iff.1 hcheck
  obtain ⟨_, st₂, hform, hsave⟩ := yields_bind_ok_iff.1 hrest
  obtain ⟨item₁, hpayload, rfl⟩ := yields_onSecond_iff.1 hform
  have hrun := yields_run (Payload.applyForm form) item.payload
  obtain ⟨-, rfl⟩ := hpayload.unique hrun.onPart
  obtain ⟨s₂, hdisk, hnames⟩ := save_yields_ok hsave
  exact ⟨s₂, hdisk.trans (check_keeps _ _ _ _ _ hlook), hnames⟩

/-- An item that is updated is the one that was found, and is handed over under its names. -/
theorem update_yields_ok (h : (update ident form).Yields s (.ok i) s') :
    ∃ item s₁, (find ident).Yields s (.ok item) s ∧ i.ident = item.ident ∧ i.kind = item.kind
      ∧ s₁.disk = s.disk ∧ (handOver i .update).Yields s₁ (.ok ()) s' := by
  obtain ⟨item, s₁, hget, hwrite⟩ := yields_bind_ok_iff.1 h
  obtain ⟨_, s₂, hopen, hfind⟩ := yields_bind_ok_iff.1 hget
  obtain ⟨-, rfl⟩ := hopen.unique (ensureOpen_yields s)
  obtain ⟨rfl, -⟩ := find_yields_ok hfind
  obtain ⟨⟨_, i'⟩, s₂, hlocal, hpure⟩ := yields_bind_ok_iff.1 hwrite
  obtain ⟨heq, rfl⟩ := yields_pure_iff.1 hpure
  cases heq
  obtain ⟨s₂, hdisk, hident, hkind, hhand⟩ := writeInput_yields_ok hlocal.of_withLocal
  exact ⟨item, s₂, hfind, hident, hkind, hdisk, hhand⟩

/-- What is handed over has bytes. -/
theorem bytes_of_handOver (h : (handOver i op).Yields s (.ok ()) s') : ∃ blob, i.bytes = .ok blob := by
  cases hb : i.bytes with
  | error e => cases (h.unique (handOver_yields_error hb)).1
  | ok blob => exact ⟨blob, rfl⟩

/-- The change that stores what is handed over is applied, if there is no slash in the name of its
record. -/
theorem handOver_yields_ok (w : s.disk.WellFormed) (hv : Valid i.kind.name i.ident)
    (hslash : .char '/' ∉ file i.kind.name i.ident) {blob : Bytes} (hb : i.bytes = .ok blob)
    (h : (handOver i .update).Yields s (.ok ()) s') :
    Repository.Admits [.update i.kind.name i.ident blob] s.disk
      ∧ Repository.Applied [.update i.kind.name i.ident blob] s.disk s'.disk := by
  obtain ⟨hkind, hident⟩ := Item.plain_of_bytes hb
  have hp := proper_single (c := .update i.kind.name i.ident blob) hv
    ⟨Json.unpaired_of_plain hkind, Json.unpaired_of_plain hident⟩
  have hkept : ∀ c ∈ (single (.update i.kind.name i.ident blob)).changes, c.Kept := by
    have hfile := RecordName.kept_file hkind hident hslash
    intro c hc _
    obtain rfl := List.mem_singleton.1 hc
    exact hfile
  by_cases hready : s.Ready
  · rcases error_or_ok ChangeList.flush (s, single (.update i.kind.name i.ident blob)) with
      ⟨e, _, hflush⟩ | ⟨name, _, hflush⟩
    · cases (h.unique (handOver_yields hb rfl hready hflush)).1
    · obtain ⟨-, rfl⟩ := h.unique (handOver_yields hb rfl hready hflush)
      exact ⟨admits_of_flush w rfl hp hkept hflush, applied_of_flush w rfl hp hkept hflush⟩
  · have hop : Operation.update ≠ .delete := nofun
    obtain ⟨e, he⟩ := handOver_of_not_ready hready hb hop
    cases (h.unique he).1

/-- The record of the identifier that an updated item has is replaced, and no other, if there is no slash
in that identifier. -/
theorem replaces_of_update (w : s.disk.WellFormed) (one : Repository.OneFile s.disk)
    (hkinds : s.registry.Fileable) (h : (update ident form).Yields s (.ok i) s')
    (hslash : .char '/' ∉ i.ident) {blob : Bytes} (hb : i.bytes = .ok blob) :
    Repository.Replaces s.disk i.ident (i.kind.name, blob) s'.disk := by
  obtain ⟨item, s₁, hfind, hident, hkind, hdisk, hhand⟩ := update_yields_ok h
  obtain ⟨-, found, -, hdecode⟩ := find_yields_ok hfind
  have hvalid := hkinds.valid hdecode
  rw [← hident, ← hkind] at hvalid
  obtain ⟨hv, hkindSlash⟩ := hvalid
  obtain ⟨ha, happlied⟩ := handOver_yields_ok (hdisk ▸ w) hv
    (RecordName.slash_not_mem_file_iff.2 ⟨hkindSlash, hslash⟩) hb hhand
  rw [hdisk] at ha happlied
  exact happlied.replaces one ha hv rfl

/-- Where no name of a file holds a slash, what is read has an identifier without one. -/
theorem slash_not_mem_of_read {d : Disk} (hnames : ∀ name ∈ d.names [], .char '/' ∉ name)
    {found : Bytes} (h : Repository.read ident d = .ok (some found)) : .char '/' ∉ ident := by
  rw [Repository.read] at h
  cases hf : Repository.find? ident d with
  | none => rw [hf] at h; cases h
  | some f =>
      obtain ⟨-, hname, hident, n, hn⟩ := Repository.exists_of_find? hf
      have hslash := hnames f.name (Disk.mem_names_iff.2 ⟨n, hn⟩)
      rw [hname, RecordName.slash_not_mem_file_iff] at hslash
      exact hident ▸ hslash.2

/-- **Update.** The record that is found for an identifier is read, and the item that comes back has the
names that stand in that record.  If the record holds the identifier that it was found for, then it is
replaced by the encoding of the item and all else stays.  If it holds another one, without a slash, then
the record of that one is replaced, and no other: the record that was found stays as it was. -/
theorem update_replaces (w : s.disk.WellFormed) (one : Repository.OneFile s.disk)
    (hnames : ∀ name ∈ s.disk.names [], .char '/' ∉ name)
    (hkinds : s.registry.Fileable) (h : (update ident form).Yields s (.ok i) s') :
    ∃ found blob, Repository.read ident s.disk = .ok (some found)
      ∧ (∃ item, (s.registry.decodeItem found).Yields () (.ok item) ()
        ∧ i.ident = item.ident ∧ i.kind = item.kind)
      ∧ i.bytes = .ok blob
      ∧ (i.ident = ident ∨ .char '/' ∉ i.ident →
        Repository.Replaces s.disk i.ident (i.kind.name, blob) s'.disk
          ∧ Repository.read ident s'.disk = .ok (some (if i.ident = ident then blob else found))) := by
  obtain ⟨item, s₁, hfind, hident, hkind, -, hhand⟩ := update_yields_ok h
  obtain ⟨-, found, hread, hdecode⟩ := find_yields_ok hfind
  obtain ⟨blob, hb⟩ := bytes_of_handOver hhand
  refine ⟨found, blob, hread, ⟨item, hdecode, hident, hkind⟩, hb, fun hown => ?_⟩
  have hslash : .char '/' ∉ i.ident :=
    hown.elim (fun heq => heq ▸ slash_not_mem_of_read hnames hread) id
  have hreplaces := replaces_of_update w one hkinds h hslash hb
  refine ⟨hreplaces, ?_⟩
  split
  · next heq => rw [← heq]; exact hreplaces.self
  · next hne => rw [hreplaces.other ident (Ne.symm hne), hread]

end Store

/-! ## A copied record -/

/-- The page `b`. -/
def copiedItem : Item := unwrittenPage "b" "t"

/-- The record of this page. -/
def copiedRecord : Bytes := pageRecord "b" "t"

/-- A repository in which this record was copied to the file of another identifier. -/
def copiedDisk : Disk :=
  Disk.put [file Kind.page.name "b"] (.file copiedRecord)
    (Disk.put [file Kind.page.name "a"] (.file copiedRecord) {})

theorem slash_not_mem_copiedDisk : ∀ name ∈ copiedDisk.names [], .char '/' ∉ name := by
  have hnames : copiedDisk.names [] = [file Kind.page.name "a", file Kind.page.name "b"] := by cbv
  rw [hnames]
  decide

/-- What this repository holds. -/
def copiedContents : Repository.Contents :=
  Function.update (Function.update (fun _ => none) "a" (some (Kind.page.name, copiedRecord))) "b"
    (some (Kind.page.name, copiedRecord))

theorem atRest_copiedDisk : Repository.AtRest copiedContents copiedDisk :=
  (Repository.atRest_empty.put_file (by decide) (by simp) copiedRecord).put_file (by decide)
    (by simp [Function.update, show (("b" : Text) = "a") = False by decide]) copiedRecord

theorem represents_copiedDisk : Repository.Represents copiedDisk copiedContents :=
  atRest_copiedDisk.settled.represents

theorem decode_copiedRecord :
    (Registry.decodeItem copiedRecord .bundled).Yields () (.ok copiedItem) () :=
  decodeItem_pageRecord (by cbv) rfl

theorem find_copiedItem {ident : Text} (h : copiedContents ident = some (Kind.page.name, copiedRecord)) :
    (Store.find ident).Yields (.starting copiedDisk) (.ok copiedItem) (.starting copiedDisk) := by
  refine Store.find_of_read ⟨rfl, rfl⟩ ?_ decode_copiedRecord
  exact (represents_copiedDisk.read_eq ident).trans (by rw [h]; rfl)

/-- Both identifiers can be updated, and the page that is updated is `b`. -/
theorem update_copiedItem (ident : Text) (h : copiedContents ident = some (Kind.page.name, copiedRecord)) :
    ∃ i blob s', (Store.update ident [("name", "m")]).Yields (.starting copiedDisk) (.ok i) s'
      ∧ i.Regular ∧ i.bytes = .ok blob ∧ i.ident = "b" ∧ i.header.revision = .value 1 := by
  have r : copiedItem.Regular := (regular_of_decodeItem decode_copiedRecord).1
  have hnow := Session.recordable_starting copiedDisk
  have hform : ∀ field ∈ ([("name", "m")] : Form), field.2.Plain := by simp [Text.plain_ofString]
  have huser : ∀ u ∈ (none : Option Text), u.Plain := nofun
  obtain ⟨blob, hb⟩ := exists_bytes_updatedPage r (Text.plain_ofString "t") hform huser hnow
  obtain ⟨clock, hclock⟩ : ∃ clock, (Session.starting copiedDisk).clock.advance = .ok clock := ⟨_, rfl⟩
  have hnamed : Path.IsFileName (file Kind.page.name "b") := by decide +kernel
  have hop : Operation.update ≠ .delete := nofun
  obtain ⟨d, hhand, -⟩ := Store.handOver_atRest
    (s := { Session.starting copiedDisk with input := [("name", "m")], clock }) atRest_copiedDisk
    ⟨rfl, rfl⟩ (regular_updatedPage r hnow) hnamed hop hb
  exact ⟨_, blob, _, Store.update_yields ⟨rfl, rfl⟩ (find_copiedItem h) r (by decide) hclock rfl hhand,
    regular_updatedPage r hnow, hb, rfl, rfl⟩

namespace Store

/-- The record of `b` is found in its own file: it is replaced, and the copy stays. -/
theorem update_replaces_own : ∃ i blob s',
    (update "b" [("name", "m")]).Yields (.starting copiedDisk) (.ok i) s' ∧ i.bytes = .ok blob
      ∧ Repository.read "b" s'.disk = .ok (some blob)
      ∧ Repository.read "a" s'.disk = .ok (some copiedRecord) := by
  obtain ⟨i, -, s', hupdate, -, -, hident, -⟩ := update_copiedItem "b" rfl
  obtain ⟨found, blob, -, -, hb, hown⟩ := update_replaces
    atRest_copiedDisk.settled.wellFormed represents_copiedDisk.tidy.oneFile slash_not_mem_copiedDisk
    Registry.fileable_bundled hupdate
  obtain ⟨hreplaces, hread⟩ := hown (.inl hident)
  rw [if_pos hident] at hread
  refine ⟨i, blob, s', hupdate, hb, hread, ?_⟩
  rw [hreplaces.other "a" (by rw [hident]; decide)]
  exact represents_copiedDisk.read_eq "a"

/-- The record of `b` is found in the file of `a`: that file stays as it was, and the file of `b` is
written. -/
theorem update_replaces_copied : copiedDisk.WellFormed ∧ Repository.OneFile copiedDisk
    ∧ ∃ i blob s', (update "a" [("name", "m")]).Yields (.starting copiedDisk) (.ok i) s'
      ∧ i.bytes = .ok blob
      ∧ Repository.read "a" s'.disk ≠ .ok (some blob)
      ∧ Repository.read "b" s'.disk ≠ Repository.read "b" copiedDisk := by
  have w := atRest_copiedDisk.settled.wellFormed
  have one : Repository.OneFile copiedDisk := represents_copiedDisk.tidy.oneFile
  obtain ⟨i, blob, s', hupdate, r, hb, hident, hrevision⟩ := update_copiedItem "a" rfl
  have hreplaces := replaces_of_update w one Registry.fileable_bundled hupdate
    (by rw [hident]; decide) hb
  have hread : ∀ ident, copiedContents ident = some (Kind.page.name, copiedRecord) →
      Repository.read ident (Session.starting copiedDisk).disk = .ok (some copiedRecord) := by
    intro ident h
    exact (represents_copiedDisk.read_eq ident).trans (by rw [h]; rfl)
  have hne : blob ≠ copiedRecord := by
    rintro rfl
    have hitem := (r.decodeItem_bytes hb).unique decode_copiedRecord
    have h := congrArg (fun i => i.header.revision) (Except.ok.inj hitem.1)
    rw [show i.recorded.header.revision = i.header.revision from rfl, hrevision] at h
    cases h
  refine ⟨w, one, i, blob, s', hupdate, hb, ?_, ?_⟩
  · rw [hreplaces.other "a" (by rw [hident]; decide), hread "a" rfl]
    exact fun h => hne (Option.some.inj (Except.ok.inj h)).symm
  · have hself := hreplaces.self
    rw [hident] at hself
    exact fun h => hne (Option.some.inj (Except.ok.inj (hself.symm.trans (h.trans (hread "b" rfl)))))

end Store

end RecordStore
