import RecordStore.Proofs.Json.Canonical
import RecordStore.Proofs.Utf8
import RecordStore.Record

/-!
# RecordStore.Proofs.Record

Records of plain data are read back.  A plain object has bytes, from which it is read up to the order
of members, and two plain objects have the same bytes exactly when they are equal up to that order
(`codec_canonical`).

The members of a bundled item's record are `Flat`: no key stands there twice, and every value is a
null, an integer or a text.  Such members have bytes exactly when every integer is short enough and
no text holds a lone surrogate (`Flat.encode_ok_iff`), and from the bytes the same members are read,
in the order of their keys (`Flat.decode_encode`).
-/

namespace RecordStore

/-! ## Members in the order of their keys -/

namespace Members

theorem get?_eq_some_iff {ms : Members} (h : ms.keys.Nodup) {key : Text} {v : Json} :
    ms.get? key = some v ↔ (key, v) ∈ ms := by
  induction ms with
  | nil => simp [get?]
  | cons m ms ih =>
      obtain ⟨k, w⟩ := m
      have hn : k ∉ keys ms ∧ (keys ms).Nodup := List.nodup_cons.1 h
      have ih := ih hn.2
      by_cases hk : k = key
      · subst hk
        have hnot : ∀ w, (k, w) ∉ ms := fun w hw => hn.1 (List.mem_map_of_mem (f := Prod.fst) hw)
        simp [get?, hnot, eq_comm]
      · simp [get?, hk, Ne.symm hk, ih]

theorem get?_eq_none_iff {ms : Members} {key : Text} : ms.get? key = none ↔ key ∉ ms.keys := by
  induction ms with
  | nil => simp [get?, keys]
  | cons m ms ih =>
      obtain ⟨k, w⟩ := m
      by_cases hk : k = key
      · simp [get?, keys, hk]
      · simp only [keys] at ih
        simp [get?, keys, hk, Ne.symm hk, ih]

theorem mem_of_get? {ms : Members} {key : Text} {v : Json} (h : ms.get? key = some v) :
    (key, v) ∈ ms := by
  induction ms with
  | nil => cases h
  | cons m ms ih =>
      obtain ⟨k, w⟩ := m
      unfold get? at h
      split at h
      · next hk =>
        cases h
        rw [hk]
        exact List.mem_cons_self
      · exact List.mem_cons_of_mem _ (ih h)

theorem get?_append (ms ms' : Members) (key : Text) :
    Members.get? key (ms ++ ms') = (ms.get? key).or (ms'.get? key) := by
  induction ms with
  | nil => rfl
  | cons m ms ih =>
      obtain ⟨k, w⟩ := m
      by_cases hk : k = key <;> simp [get?, hk, ih]

/-- A key whose members are kept keeps its value. -/
theorem get?_filter {p : Text × Json → Bool} {key : Text} (h : ∀ v, p (key, v) = true) (ms : Members) :
    Members.get? key (ms.filter p) = ms.get? key := by
  induction ms with
  | nil => rfl
  | cons m ms ih =>
      obtain ⟨k, w⟩ := m
      by_cases hp : p (k, w) = true
      · rw [List.filter_cons_of_pos hp, get?, get?, ih]
      · have hk : k ≠ key := by
          rintro rfl
          exact hp (h w)
        rw [List.filter_cons_of_neg hp, get?, if_neg hk, ih]

/-- The order of members does not matter where no key stands twice. -/
theorem get?_perm {ms ms' : Members} (hp : ms.Perm ms') (h : ms.keys.Nodup) (key : Text) :
    ms.get? key = ms'.get? key := by
  have h' : ms'.keys.Nodup := (hp.map Prod.fst).nodup_iff.1 h
  refine Option.ext fun v => ?_
  rw [get?_eq_some_iff h, get?_eq_some_iff h', hp.mem_iff]

end Members

namespace Record

open Json (sortByKey sortByKey_perm)

variable {ms : Members}

/-- The payload's part of a record holds no field of the header, and all others as they are. -/
theorem get?_payloadPart (key : Text) (ms : Members) :
    (payloadPart ms).get? key = if Header.isField key then none else ms.get? key := by
  split
  · next hkey =>
    refine Members.get?_eq_none_iff.2 fun hmem => ?_
    obtain ⟨m, hm, rfl⟩ := List.mem_map.1 hmem
    simpa [hkey] using (List.mem_filter.1 hm).2
  · next hkey => exact Members.get?_filter (fun v => by simp [hkey]) ms

/-! ## Plain objects -/

/-- The bytes of a plain value are its sorted form, written as characters. -/
theorem encode_eq_of_plain {v : Json} (h : Json.Plain v) :
    ∃ cs, v.sortKeys.write .unicode = Text.ofChars cs
      ∧ encode v = .ok (Utf8.encodeChars (cs ++ ['\n'])) := by
  obtain ⟨cs, hcs⟩ := h.sortKeys.plain_write
  have htext : Text.ofChars cs ++ [.char '\n'] = Text.ofChars (cs ++ ['\n']) := by
    simp [Text.ofChars]
  refine ⟨cs, hcs, ?_⟩
  rw [encode, if_pos h.digitsWithin, hcs, htext, Utf8.encode_ofChars]
  rfl

/-- From the bytes of a plain object its sorted form is read. -/
theorem decode_encode_of_plain (h : Json.Plain (.obj ms)) {blob : Bytes}
    (hencode : encode (.obj ms) = .ok blob) :
    decode blob = .ok (sortByKey (Json.sortKeysMembers ms)) := by
  obtain ⟨cs, hcs, heq⟩ := encode_eq_of_plain h
  rw [hencode] at heq
  cases heq
  have hblank : ∀ g ∈ [Glyph.char '\n'], Json.isSpace g = true := by decide
  have hread := Json.read_write .unicode h.sortKeys.readable hblank
  have htext : Text.ofChars (cs ++ ['\n'])
      = (Json.obj ms).sortKeys.write .unicode ++ [.char '\n'] := by
    rw [hcs]
    simp [Text.ofChars]
  rw [decode, Utf8.decode_encodeChars]
  simp only [Except.mapError, bind, Except.bind, readText, htext, hread]
  rw [Json.sortKeys]
  rfl

/-- Plain values that have the same sorted form have the same bytes. -/
theorem encode_congr {v w : Json} (hv : Json.Plain v) (hw : Json.Plain w)
    (h : v.sortKeys = w.sortKeys) : encode v = encode w := by
  rw [encode, encode, if_pos hv.digitsWithin, if_pos hw.digitsWithin, h]

/-- Plain objects that have the same bytes have the same sorted form. -/
theorem sortKeys_eq_of_encode {ms' : Members} (h : Json.Plain (.obj ms))
    (h' : Json.Plain (.obj ms')) {blob : Bytes} (hencode : encode (.obj ms) = .ok blob)
    (hencode' : encode (.obj ms') = .ok blob) : (Json.obj ms).sortKeys = (Json.obj ms').sortKeys := by
  have hread := decode_encode_of_plain h hencode
  rw [decode_encode_of_plain h' hencode'] at hread
  rw [Json.sortKeys, Json.sortKeys, Except.ok.inj hread]

/-- **Canonical bytes.** A plain object has bytes.  From them it is read up to the order of members,
and what is read has the same bytes again.  The plain objects with these bytes are those that are
equal to it up to the order of members. -/
theorem codec_canonical (h : Json.Plain (.obj ms)) :
    ∃ blob, encode (.obj ms) = .ok blob
      ∧ (∃ read, decode blob = .ok read ∧ Json.Reordered (.obj ms) (.obj read)
        ∧ encode (.obj read) = .ok blob)
      ∧ ∀ ms' : Members, Json.Plain (.obj ms') →
        (encode (.obj ms') = .ok blob ↔ Json.Reordered (.obj ms) (.obj ms')) := by
  obtain ⟨cs, -, hencode⟩ := encode_eq_of_plain h
  have hsame : ∀ {ms' : Members}, Json.Reordered (.obj ms) (.obj ms') →
      encode (.obj ms') = .ok (Utf8.encodeChars (cs ++ ['\n'])) := by
    intro ms' hr
    rw [← encode_congr h (hr.plain h) (hr.sortKeys_eq h)]
    exact hencode
  have hsorted : Json.Reordered (.obj ms) (.obj (sortByKey (Json.sortKeysMembers ms))) := by
    have hr := Json.reordered_sortKeys (.obj ms)
    rwa [Json.sortKeys] at hr
  refine ⟨_, hencode, ⟨_, decode_encode_of_plain h hencode, hsorted, hsame hsorted⟩, ?_⟩
  intro ms' h'
  exact ⟨fun hencode' => h.reordered_iff.2 (sortKeys_eq_of_encode h h' hencode hencode'), hsame⟩

/-- An object with containers in it, its keys out of order. -/
def nestedSample : Members :=
  [("tags", .arr [.obj [("ü", .null), ("\n", .bool true)], .arr [], .obj []]), ("", .int (-12)),
    ("note", .str "a\x01\"é")]

/-- The same object with its members the other way round. -/
def nestedSampleReversed : Members :=
  [("note", .str "a\x01\"é"), ("", .int (-12)),
    ("tags", .arr [.obj [("\n", .bool true), ("ü", .null)], .arr [], .obj []])]

theorem plain_nestedSample : Json.Plain (.obj nestedSample) := by
  have hnone : ∀ v ∈ ([] : List Json), Json.Plain v := fun _ hv => absurd hv List.not_mem_nil
  have hpair : Json.Plain (.obj [("ü", .null), ("\n", .bool true)]) :=
    .obj (by decide) (by decide) (by simpa using ⟨.null, .bool true⟩)
  have hempty : Json.Plain (.obj []) := .obj List.nodup_nil (by simp) (by simp)
  have htags : Json.Plain (.arr [.obj [("ü", .null), ("\n", .bool true)], .arr [], .obj []]) :=
    .arr (by simpa using ⟨hpair, .arr hnone, hempty⟩)
  exact .obj (by decide) (by decide)
    (by simpa [nestedSample] using ⟨htags, .int (by decide), .str (by decide)⟩)

theorem reordered_nestedSample :
    Json.Reordered (.obj nestedSample) (.obj nestedSampleReversed) := by
  have hpair : Json.Reordered (.obj [("ü", .null), ("\n", .bool true)])
      (.obj [("\n", .bool true), ("ü", .null)]) := .members (.swap _ _ _)
  exact .trans (.value [] _ "tags" (.item [] [.arr [], .obj []] hpair))
    (.members (List.reverse_perm _).symm)

/-- Both orders of the nested object have the same bytes. -/
theorem codec_canonical_nested : Json.Plain (.obj nestedSample)
    ∧ ∃ blob, encode (.obj nestedSample) = .ok blob ∧ encode (.obj nestedSampleReversed) = .ok blob
      ∧ ∃ read, decode blob = .ok read ∧ Json.Reordered (.obj nestedSample) (.obj read) := by
  have hreversed := reordered_nestedSample
  obtain ⟨blob, hencode, ⟨read, hread, hreordered, -⟩, hsame⟩ := codec_canonical plain_nestedSample
  exact ⟨plain_nestedSample, blob, hencode, (hsame _ (hreversed.plain plain_nestedSample)).2 hreversed,
    read, hread, hreordered⟩

/-! ## Flat members -/

/-- A value that is no container and no floating-point number. -/
def Scalar : Json → Prop
  | .null | .int _ | .str _ => True
  | _ => False

/-- A value that a record can hold as it is: an integer that is not too long, or a text without lone
surrogates. -/
def Storable : Json → Prop
  | .null => True
  | .int n => (Nat.toDigits 10 n.natAbs).length ≤ Json.digitLimit
  | .str t => t.Plain
  | _ => False

/-- Members of plain data. -/
structure Flat (ms : Members) : Prop where
  nodup : ms.keys.Nodup
  plain : ∀ m ∈ ms, m.1.Plain
  scalar : ∀ m ∈ ms, Scalar m.2

theorem sortKeysMembers_eq (h : ∀ m ∈ ms, Scalar m.2) : Json.sortKeysMembers ms = ms := by
  induction ms with
  | nil => rfl
  | cons m ms ih =>
      obtain ⟨k, v⟩ := m
      have hv : Scalar v := h (k, v) List.mem_cons_self
      have hsort : v.sortKeys = v := by
        cases v <;> first | rfl | exact absurd hv id
      rw [Json.sortKeysMembers, hsort, ih fun m hm => h m (List.mem_cons_of_mem _ hm)]

theorem Flat.sortKeys_obj (f : Flat ms) : (Json.obj ms).sortKeys = .obj (sortByKey ms) := by
  rw [Json.sortKeys, sortKeysMembers_eq f.scalar]

theorem Flat.sorted (f : Flat ms) : Flat (sortByKey ms) := by
  have hp := sortByKey_perm ms
  exact ⟨(hp.map Prod.fst).nodup_iff.2 f.nodup, fun m hm => f.plain m (hp.mem_iff.1 hm),
    fun m hm => f.scalar m (hp.mem_iff.1 hm)⟩

theorem Flat.get?_sortByKey (f : Flat ms) (key : Text) : (sortByKey ms).get? key = ms.get? key :=
  Members.get?_perm (sortByKey_perm ms) f.sorted.nodup key

/-! ## Integers that are too long -/

theorem digitsWithin_obj (h : ∀ m ∈ ms, Scalar m.2) : (Json.obj ms).digitsWithin Json.digitLimit = true
    ↔ ∀ m ∈ ms, ∀ n, m.2 = .int n → (Nat.toDigits 10 n.natAbs).length ≤ Json.digitLimit := by
  rw [Json.digitsWithin, Json.digitsWithinMembers_eq_all, List.all_eq_true]
  refine forall₂_congr fun m hm => ?_
  have hv := h m hm
  cases hval : m.2 with
  | null | str => simp [Json.digitsWithin]
  | int n => simp [Json.digitsWithin]
  | bool | float | arr | obj =>
      rw [hval] at hv
      exact absurd hv id

/-! ## Lone surrogates -/

/-- The glyphs of a part stand in the block of the parts. -/
theorem mem_block_of_mem {depth : Nat} {first last : Char} {parts : List Text} {part : Text}
    (hpart : part ∈ parts) {x : Glyph} (hx : x ∈ part) : x ∈ Json.block depth first last parts := by
  have hlined : x ∈ Json.lined (depth + 1) parts := by
    induction parts with
    | nil => cases hpart
    | cons p ps ih =>
        cases ps with
        | nil =>
            obtain rfl := List.mem_singleton.1 hpart
            simpa using hx
        | cons q qs =>
            rw [Json.lined_cons_cons, List.mem_append, List.mem_cons, List.mem_append]
            rcases List.mem_cons.1 hpart with rfl | hpart
            · exact .inl hx
            · exact .inr (.inr (.inr (ih hpart)))
  cases parts with
  | nil => cases hpart
  | cons p ps =>
      rw [Json.block_cons]
      exact List.mem_cons_of_mem _ (List.mem_append_right _ (List.mem_append_left _ hlined))

theorem mem_writeMembers {m : Text × Json} (hm : m ∈ ms) (depth : Nat) :
    Json.writeString .unicode m.1 ++ [.char ':', .char ' '] ++ Json.writeAt .unicode depth m.2
      ∈ Json.writeMembers .unicode depth ms := by
  induction ms with
  | nil => cases hm
  | cons m' ms ih =>
      obtain ⟨k, v⟩ := m'
      rw [Json.writeMembers]
      rcases List.mem_cons.1 hm with rfl | hm
      · exact List.mem_cons_self
      · exact List.mem_cons_of_mem _ (ih hm)

/-- A lone surrogate is written as it is. -/
theorem surrogate_mem_writeString {t : Text} {i : Fin 2048} (h : .surrogate i ∈ t) :
    Glyph.surrogate i ∈ Json.writeString .unicode t := by
  have hwrite : Json.writeGlyph .unicode (.surrogate i) = [.surrogate i] := by
    have hcode : ¬ (Glyph.surrogate i).code < 0x20 := by
      simp only [Glyph.code]
      omega
    simp [Json.writeGlyph, hcode]
  simp only [Json.writeString, List.mem_append, List.mem_flatMap]
  exact .inl (.inr ⟨_, h, by rw [hwrite]; exact List.mem_cons_self⟩)

/-- The texts of an object that is written by characters alone hold characters alone. -/
theorem plain_of_plain_write (h : ((Json.obj ms).write .unicode).Plain) {m : Text × Json} {t : Text}
    (hm : m ∈ ms) (ht : m.2 = .str t) : t.Plain := by
  refine Text.plain_iff_forall.2 fun g hg => ?_
  cases g with
  | char c => rfl
  | surrogate i =>
      have hmem : Glyph.surrogate i ∈ (Json.obj ms).write .unicode := by
        rw [Json.write, Json.writeAt]
        refine mem_block_of_mem (mem_writeMembers hm 1) (List.mem_append_right _ ?_)
        rw [ht, Json.writeAt]
        exact surrogate_mem_writeString hg
      exact Text.plain_iff_forall.1 h _ hmem

/-! ## Records -/

theorem plain_of_storable {v : Json} (h : Storable v) : Json.Plain v := by
  cases v with
  | null => exact .null
  | int n => exact .int h
  | str t => exact .str h
  | bool | float | arr | obj => exact absurd h id

/-- Flat members that a record can hold are a plain object. -/
theorem Flat.plain_obj (f : Flat ms) (h : ∀ m ∈ ms, Storable m.2) : Json.Plain (.obj ms) :=
  .obj f.nodup f.plain fun m hm => plain_of_storable (h m hm)

/-- Flat members that have bytes hold what a record can hold. -/
theorem Flat.storable_of_encode (f : Flat ms) {blob : Bytes} (h : encode (.obj ms) = .ok blob) :
    ∀ m ∈ ms, Storable m.2 := by
  have hp := sortByKey_perm ms
  unfold encode at h
  split at h
  · next hdigits =>
    rw [f.sortKeys_obj] at h
    cases hutf : Utf8.encode ((Json.obj (sortByKey ms)).write .unicode ++ [.char '\n']) with
    | error e => rw [hutf] at h; cases h
    | ok bytes =>
        obtain ⟨cs, hcs, -⟩ := Utf8.encode_eq_ok_iff.1 hutf
        have hplain : ((Json.obj (sortByKey ms)).write .unicode).Plain :=
          Text.plain_iff_forall.2 fun g hg =>
            Text.plain_iff_forall.1 ⟨cs, hcs⟩ g (List.mem_append_left _ hg)
        intro m hm
        have hv := f.scalar m hm
        cases hval : m.2 with
        | null => trivial
        | int n => exact (digitsWithin_obj f.scalar).1 hdigits m hm n hval
        | str t => exact plain_of_plain_write hplain (hp.mem_iff.2 hm) hval
        | bool | float | arr | obj =>
            rw [hval] at hv
            exact absurd hv id
  · cases h

/-- Flat members have bytes exactly when a record can hold all of them. -/
theorem Flat.encode_ok_iff (f : Flat ms) :
    (∃ blob, encode (.obj ms) = .ok blob) ↔ ∀ m ∈ ms, Storable m.2 := by
  constructor
  · rintro ⟨blob, h⟩
    exact f.storable_of_encode h
  · intro h
    obtain ⟨cs, -, hencode⟩ := encode_eq_of_plain (f.plain_obj h)
    exact ⟨_, hencode⟩

/-- **Records.** From the bytes of flat members the members are read, in the order of their keys. -/
theorem Flat.decode_encode (f : Flat ms) {blob : Bytes} (h : encode (.obj ms) = .ok blob) :
    decode blob = .ok (sortByKey ms) := by
  have hread := decode_encode_of_plain (f.plain_obj (f.storable_of_encode h)) h
  rwa [sortKeysMembers_eq f.scalar] at hread

end Record

end RecordStore
