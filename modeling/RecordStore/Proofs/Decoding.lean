import RecordStore.Proofs.Item
import RecordStore.Proofs.Json.Faults

/-!
# RecordStore.Proofs.Decoding

What reading a record comes to.  The bytes give an item, or they are refused as a bad record, or their
kind is not registered (`Registry.decodeItem_outcome`).  One fault is told in another way: an integer of
too many digits is refused as such, and not as a bad record (`Registry.decodeItem_outcome_long`).

Each part of the reading is told by what it fails with (`FailsWith`): splitting a record and loading the
fields of a payload fail only as a bad record, whatever values stand in the fields.
-/

namespace RecordStore

open Procedure

/-! ## How the parts fail -/

/-- A result that fails only in some ways. -/
def FailsWith {α : Type} (P : Failure → Prop) (x : Except Failure α) : Prop := ∀ e, x = .error e → P e

section FailsWith

variable {α β : Type} {P : Failure → Prop}

theorem FailsWith.ok (a : α) : FailsWith P (.ok a) := nofun

theorem FailsWith.bind {x : Except Failure α} {f : α → Except Failure β} (h : FailsWith P x)
    (hf : ∀ a, x = .ok a → FailsWith P (f a)) : FailsWith P (x >>= f) := by
  cases x with
  | error e => exact fun e' heq => h e' (by cases heq; rfl)
  | ok a => exact hf a rfl

theorem FailsWith.mapError {ε : Type} {f : ε → Failure} {x : Except ε α}
    (h : ∀ e, x = .error e → P (f e)) : FailsWith P (x.mapError f) := by
  cases x with
  | error e =>
      rintro _ ⟨⟩
      exact h e rfl
  | ok a => exact .ok a

end FailsWith

/-- A failure that tells that a record is no item. -/
def Failure.TellsBadRecord (e : Failure) : Prop := ∃ fault, e = .deserialization fault

/-- A failure that tells an integer of too many digits, which stand in the text of some bytes. -/
def Failure.TellsLongRun (blob : Bytes) (e : Failure) : Prop :=
  ∃ cs n, Utf8.decode blob = .ok cs ∧ Json.LongRun n (Text.ofChars cs) ∧ e = .longNumeral n

section Parts

variable {data ms : Members} {kind : Kind} {blob : Bytes}

theorem failsWith_decode (blob : Bytes) :
    FailsWith (fun e => e.TellsBadRecord ∨ e.TellsLongRun blob) (Record.decode blob) := by
  refine .bind (.mapError fun e _ => .inl ⟨_, rfl⟩) fun cs hcs => .bind (.mapError fun e he => ?_) fun v _ => ?_
  · cases e with
    | malformed problem place => exact .inl ⟨_, rfl⟩
    | longInteger n =>
        have htext : Utf8.decode blob = .ok cs := by
          cases hd : Utf8.decode blob with
          | error e => rw [hd] at hcs; cases hcs
          | ok cs' => rw [hd] at hcs; cases hcs; rfl
        exact .inr ⟨cs, n, htext, Json.longRun_of_read he, rfl⟩
  · cases v with
    | obj ms => exact .ok ms
    | _ => rintro _ ⟨⟩; exact .inl ⟨_, rfl⟩

theorem failsWith_split (ms : Members) : FailsWith Failure.TellsBadRecord (Record.split ms) := by
  intro e he
  unfold Record.split at he
  dsimp only at he
  split at he
  · cases he
    exact ⟨_, rfl⟩
  · split at he <;> cases he
    exact ⟨_, rfl⟩

theorem failsWith_loadText (kind : Kind) (name : Text) (data : Members) :
    FailsWith Failure.TellsBadRecord (Payload.loadText kind name data) := by
  intro e he
  unfold Payload.loadText at he
  split at he <;> cases he
  exact ⟨_, rfl⟩

theorem failsWith_loadStatus (data : Members) :
    FailsWith Failure.TellsBadRecord (Payload.loadStatus data) := by
  intro e he
  unfold Payload.loadStatus at he
  split at he
  · cases he
  · split at he
    · next t _ =>
      cases hs : Status.ofLabel? t with
      | none => rw [hs] at he; cases he; exact ⟨_, rfl⟩
      | some s => rw [hs] at he; cases he
    · cases he
      exact ⟨_, rfl⟩

theorem failsWith_loadDeferral (data : Members) :
    FailsWith Failure.TellsBadRecord (Payload.loadDeferral data) := by
  intro e he
  unfold Payload.loadDeferral at he
  split at he
  · cases he
  · split at he
    · split at he <;> cases he
      exact ⟨_, rfl⟩
    · cases he
      exact ⟨_, rfl⟩

/-- Whatever stands in the fields of a record, loading them fails only as a bad record. -/
theorem failsWith_loadBody (kind : Kind) (data : Members) (b : Body) :
    FailsWith Failure.TellsBadRecord (Payload.loadBody kind data b) := by
  have htext := fun name => failsWith_loadText kind name data
  cases b with
  | page p => exact .bind (htext _) fun _ _ => .bind (htext _) fun _ _ => .ok _
  | task t =>
      exact .bind (htext _) fun _ _ => .bind (htext _) fun _ _ => .bind (htext _) fun _ _ =>
        .bind (failsWith_loadStatus data) fun _ _ => .bind (failsWith_loadDeferral data) fun _ _ => .ok _

end Parts

/-! ## Outcomes -/

namespace Registry

/-- What reading a record can come to. -/
inductive Outcome (blob : Bytes) : Except Failure Item → Prop
  | item {ms : Members} {i : Item} (members : Record.decode blob = .ok ms)
      (ident : ms.get? "ident" = some (.str i.ident))
      (kind : ms.get? "kind" = some (.str i.kind.name)) : Outcome blob (.ok i)
  | badRecord (fault : DeserializationFault) : Outcome blob (.error (.deserialization fault))
  | unregistered {ms data : Members} {h : Header} (members : Record.decode blob = .ok ms)
      (split : Record.split ms = .ok (h, data)) (other : bundled.has h.kind.name = false) :
      Outcome blob (.error (.configuration (.unregistered h.kind.name)))
  | longNumeral {cs : List Char} {n : Nat} (text : Utf8.decode blob = .ok cs)
      (run : Json.LongRun n (Text.ofChars cs)) : Outcome blob (.error (.longNumeral n))

/-- Whether some bytes are a sound record but for their kind. -/
def OfOtherKind (blob : Bytes) : Prop :=
  ∃ ms h data, Record.decode blob = .ok ms ∧ Record.split ms = .ok (h, data)
    ∧ bundled.has h.kind.name = false

section Outcome

variable {blob : Bytes} {ms data : Members} {h : Header} {e : Failure}

theorem decodeItem_of_decode_error (hd : Record.decode blob = .error e) (r : Registry) :
    (decodeItem blob r).Yields () (.error e) () := by
  unfold decodeItem
  rw [hd]
  exact (yields_ofExcept (.error e) ()).bind_error

theorem decodeItem_of_split_error (hd : Record.decode blob = .ok ms) (hs : Record.split ms = .error e)
    (r : Registry) : (decodeItem blob r).Yields () (.error e) () := by
  unfold decodeItem
  rw [hd]
  refine yields_ofExcept_ok_bind_iff.2 ?_
  rw [hs]
  exact (yields_ofExcept (.error e) ()).bind_error

theorem decodeItem_of_get_error {r : Registry} (hd : Record.decode blob = .ok ms)
    (hs : Record.split ms = .ok (h, data)) (hget : r.get h.kind.name = .error e) :
    (decodeItem blob r).Yields () (.error e) () := by
  unfold decodeItem
  rw [hd]
  refine yields_ofExcept_ok_bind_iff.2 ?_
  rw [hs]
  refine yields_ofExcept_ok_bind_iff.2 ?_
  dsimp only
  rw [hget]
  exact (yields_ofExcept (.error e) ()).bind_error

/-- **Reading.** Whatever the bytes are, reading them gives an item with the names that stand in the
record, or refuses them as a bad record, for their kind, or for an integer of too many digits.  They are
refused for their kind exactly if nothing else is wrong with members and header. -/
theorem decodeItem_outcome (blob : Bytes) : ∃ out, (decodeItem blob .bundled).Yields () out ()
    ∧ Outcome blob out ∧ ((∃ fault, out = .error (.configuration fault)) ↔ OfOtherKind blob) := by
  cases hd : Record.decode blob with
  | error e =>
      have hother : ¬ OfOtherKind blob := by
        rintro ⟨ms, _, _, hms, -⟩
        cases hd.symm.trans hms
      refine ⟨_, decodeItem_of_decode_error hd _, ?_⟩
      rcases failsWith_decode blob e hd with ⟨fault, rfl⟩ | ⟨cs, n, hcs, hrun, rfl⟩
      · exact ⟨.badRecord fault, by simp [hother]⟩
      · exact ⟨.longNumeral hcs hrun, by simp [hother]⟩
  | ok ms =>
      cases hs : Record.split ms with
      | error e =>
          have hother : ¬ OfOtherKind blob := by
            rintro ⟨ms', _, _, hms, hs', -⟩
            cases hd.symm.trans hms
            cases hs.symm.trans hs'
          obtain ⟨fault, rfl⟩ := failsWith_split ms e hs
          exact ⟨_, decodeItem_of_split_error hd hs _, .badRecord fault, by simp [hother]⟩
      | ok r =>
          obtain ⟨h, data⟩ := r
          have hother : OfOtherKind blob ↔ bundled.has h.kind.name = false := by
            refine ⟨?_, fun hkind => ⟨ms, h, data, hd, hs, hkind⟩⟩
            rintro ⟨ms', h', data', hms, hs', hkind⟩
            cases hd.symm.trans hms
            cases hs.symm.trans hs'
            exact hkind
          cases hhas : bundled.has h.kind.name with
          | false =>
              refine ⟨_, decodeItem_of_get_error hd hs (get_of_has_eq_false hhas),
                .unregistered hd hs hhas, ?_⟩
              simp [hother, hhas]
          | true =>
              obtain ⟨e, he⟩ := exists_get_of_has hhas
              refine ⟨_, decodeItem_yields hd hs he, ?_⟩
              cases hbody : Payload.loadBody e.policy.kind data e.policy.fresh.body with
              | error e =>
                  obtain ⟨fault, rfl⟩ := failsWith_loadBody _ _ _ e hbody
                  exact ⟨.badRecord fault, by simp [hother, hhas, Except.map]⟩
              | ok body =>
                  obtain ⟨hident, hkind⟩ := Header.names_of_ofMembers (header_of_split hs).1
                  exact ⟨.item hd hident hkind, by simp [hother, hhas, Except.map]⟩

end Outcome

end Registry

/-! ## A revision of too many digits

The limit on digits is met while the text is read, so a record is refused there which is sound otherwise. -/

/-- The members of a page's record up to the revision, behind the first quote. -/
def beforeRevision : List Char := "ident\":\"a\",\"kind\":\"simple\",\"revision\":".toList

/-- The record of a page with a revision. -/
def revisionRecord (n : Nat) : Bytes :=
  Utf8.encodeChars ('\x7b' :: '"' :: (beforeRevision ++ (Nat.toDigits 10 n ++ ['\x7d'])))

section LongRevision

open Json

variable {n : Nat}

/-- The members of this record are refused where the revision is too long. -/
theorem readMembers_revision (hn : digitLimit < (Nat.toDigits 10 n).length) (fuel : Nat) :
    readMembers (fuel + 4) (.char '"' :: (Text.ofChars beforeRevision ++ (Text.ofNat n ++ [.char '\x7d'])))
      = .error (.longInteger (Nat.toDigits 10 n).length) := by
  obtain ⟨g, t, hg, hdigit⟩ := ofNat_eq_cons n
  have hatom := readAtom_ofNat n (endsNumber_cons (g := .char '\x7d') (t := []) (by decide))
  rw [integer_ofNat_long false hn] at hatom
  have hspace : skipSpace (Text.ofNat n ++ [.char '\x7d']) = Text.ofNat n ++ [.char '\x7d'] := by
    rw [hg]
    exact skipSpace_cons (isSpace_of_opensValue (opensValue_of_isDigit hdigit)) _
  have hvalue : ∀ k, readValue (k + 1) (Text.ofNat n ++ [.char '\x7d'])
      = .error (.longInteger (Nat.toDigits 10 n).length) := by
    intro k
    rw [hg, List.cons_append] at hatom ⊢
    rw [readValue_number (.inr hdigit), hatom]
    rfl
  generalize Text.ofNat n ++ [.char '\x7d'] = tail at hspace hvalue
  have hident : readString (Text.ofChars beforeRevision ++ tail)
      = .ok ("ident", .char ':' :: (Text.ofString "\"a\",\"kind\":\"simple\",\"revision\":" ++ tail)) := rfl
  have hkind : readString (Text.ofString "kind\":\"simple\",\"revision\":" ++ tail)
      = .ok ("kind", .char ':' :: (Text.ofString "\"simple\",\"revision\":" ++ tail)) := rfl
  have hrevision : readString (Text.ofString "revision\":" ++ tail) = .ok ("revision", .char ':' :: tail) := rfl
  refine readMembers_of_rest_error (v := .str "a") hident rfl ?_
  refine readMembers_of_rest_error (v := .str "simple") hkind rfl ?_
  refine readMembers_of_value_error hrevision ?_
  rw [hspace, hvalue]

theorem readText_revision (hn : digitLimit < (Nat.toDigits 10 n).length) :
    readText (.char '\x7b' :: .char '"' :: (Text.ofChars beforeRevision ++ (Text.ofNat n ++ [.char '\x7d'])))
      = .error (.longInteger (Nat.toDigits 10 n).length) := by
  have hmembers := readMembers_revision hn
  generalize Text.ofChars beforeRevision ++ (Text.ofNat n ++ [.char '\x7d']) = rest at hmembers
  have hfuel : fuelFor (.char '\x7b' :: .char '"' :: rest) = 2 * rest.length + 1 + 4 + 1 := by
    simp only [fuelFor, List.length_cons]
    omega
  have hquote := skipSpace_cons (show isSpace (.char '"') = false from rfl) rest
  have hvalue := readValue_obj hquote (by decide) (2 * rest.length + 1 + 4)
  rw [hmembers] at hvalue
  have hspace := skipSpace_cons (show isSpace (.char '\x7b') = false from rfl) (.char '"' :: rest)
  rw [readText.eq_def]
  split
  · next heq => cases (List.cons.inj heq).1
  · rw [hfuel, hspace, hvalue]
    rfl

/-- A text with an integer that is too long is no bad record: it is refused for the integer. -/
theorem decode_of_longInteger {cs : List Char} (h : readText (Text.ofChars cs) = .error (.longInteger n)) :
    Record.decode (Utf8.encodeChars cs) = .error (.longNumeral n) := by
  have hread : Record.readText (Text.ofChars cs) = .error (.longNumeral n) := by
    rw [Record.readText, Json.read, h]
    rfl
  rw [Record.decode, Utf8.decode_encodeChars]
  show (Record.readText (Text.ofChars cs) >>= _) = _
  rw [hread]
  rfl

theorem decode_revisionRecord (hn : digitLimit < (Nat.toDigits 10 n).length) :
    Record.decode (revisionRecord n) = .error (.longNumeral (Nat.toDigits 10 n).length) := by
  have htext : Text.ofChars ('\x7b' :: '"' :: (beforeRevision ++ (Nat.toDigits 10 n ++ ['\x7d'])))
      = .char '\x7b' :: .char '"' :: (Text.ofChars beforeRevision ++ (Text.ofNat n ++ [.char '\x7d'])) := by
    simp [Text.ofChars, Text.ofNat]
  exact decode_of_longInteger (htext ▸ readText_revision hn)

/-- A record with a revision of too many digits is neither read nor refused as a bad record. -/
theorem Registry.decodeItem_outcome_long : ∃ e,
    (decodeItem (revisionRecord (10 ^ digitLimit)) .bundled).Yields () (.error e) ()
      ∧ (∀ fault, e ≠ .deserialization fault) ∧ ∀ fault, e ≠ .configuration fault := by
  have hn : digitLimit < (Nat.toDigits 10 (10 ^ digitLimit)).length := by
    refine Nat.lt_of_not_le fun hle => ?_
    have hlt := (Nat.length_toDigits_le_iff (by decide) (by decide)).1 hle
    exact Nat.lt_irrefl _ hlt
  exact ⟨_, decodeItem_of_decode_error (decode_revisionRecord hn) _, nofun, nofun⟩

end LongRevision

end RecordStore
