import RecordStore.Utf8

/-!
# RecordStore.Utf8.Escaped

The names of files as texts.  A name is bytes, which need not be UTF-8.  A byte that belongs to no
well-formed sequence is read as a lone surrogate of its own, and such a surrogate is written as its
byte:

    80..FF    U+DC80..U+DCFF

So every name is written as it was read.  The other way around, surrogates whose bytes happen to be a
well-formed sequence are read back as the character of that sequence.
-/

namespace RecordStore.Utf8

/-! ## Encoding -/

/-- The byte that a lone surrogate stands for, if it stands for one. -/
def escapedByte? (i : Fin 2048) : Option UInt8 :=
  if 0x480 ≤ i.val ∧ i.val < 0x500 then some (UInt8.ofNat (i.val - 0x400)) else none

/-- Encode a text that begins at a given position of the output text, escaped bytes as themselves. -/
def encodeEscapedFrom (pos : Nat) : Text → Except EncodeFault Bytes
  | [] => .ok []
  | .char c :: t => (encodeEscapedFrom (pos + 1) t).map (encodeChar c ++ ·)
  | .surrogate i :: t =>
    match escapedByte? i with
    | some b => (encodeEscapedFrom (pos + 1) t).map (b :: ·)
    | none => .error ⟨pos, surrogateRun t + 1, i⟩

/-- Encode a text, escaped bytes as themselves; no other lone surrogate can be encoded. -/
def encodeEscaped (t : Text) : Except EncodeFault Bytes := encodeEscapedFrom 0 t

/-! ## Decoding -/

/-- The lone surrogate that stands for a byte. -/
def escapeByte (b : UInt8) : Glyph := .ofCode (0xDC00 + b.toNat)

/-- Decode bytes up to the first that is ill-formed, escape that one, and go on behind it, as often as
given. -/
def decodeEscapedUpTo : Nat → Bytes → Text
  | 0, _ => []
  | fuel + 1, bytes =>
    match decode bytes with
    | .ok cs => .ofChars cs
    | .error e =>
      let before := (decode (bytes.take e.start)).toOption.getD []
      .ofChars before ++ escapeByte e.byte :: decodeEscapedUpTo fuel (bytes.drop (e.start + 1))

/-- Decode bytes, those that are ill-formed being escaped. -/
def decodeEscaped (bytes : Bytes) : Text := decodeEscapedUpTo bytes.length bytes

end RecordStore.Utf8
