import RecordStore.Text

/-!
# RecordStore.Utf8

UTF-8, the form in which texts are stored.  The decoder accepts the well-formed sequences only and
says where the first ill-formed one stands; the second byte of a sequence is bounded by its first,
which rules out overlong forms, surrogates and numbers past the last code point:

    first    second   further bytes
    00..7F
    C2..DF   80..BF
    E0       A0..BF   80..BF
    E1..EC   80..BF   80..BF
    ED       80..9F   80..BF
    EE..EF   80..BF   80..BF
    F0       90..BF   80..BF 80..BF
    F1..F3   80..BF   80..BF 80..BF
    F4       80..8F   80..BF 80..BF

The encoder refuses lone surrogates, which have no well-formed sequence.
-/

namespace RecordStore

/-- The content of a file or of a stored record. -/
abbrev Bytes := List UInt8

namespace Utf8

/-! ## Faults -/

/-- Why a sequence of bytes is ill-formed. -/
inductive Reason where
  | startByte
  | continuationByte
  | endOfData
deriving DecidableEq

/-- The wording of a reason. -/
def Reason.message : Reason → Text
  | startByte => "invalid start byte"
  | continuationByte => "invalid continuation byte"
  | endOfData => "unexpected end of data"

/-- Where decoding stopped: `width` bytes from `start` on begin a sequence that is ill-formed; the
first of them is `byte`. -/
structure DecodeFault where
  start : Nat
  width : Nat
  byte : UInt8
  reason : Reason
deriving DecidableEq

/-- Two lower-case hexadecimal digits. -/
def hexByte (b : UInt8) : Text :=
  Text.ofChars [Nat.digitChar (b.toNat / 16), Nat.digitChar (b.toNat % 16)]

/-- The message of a decoding fault. -/
def DecodeFault.message (e : DecodeFault) : Text :=
  let place :=
    if e.width = 1 then
      "byte 0x" ++ hexByte e.byte ++ " in position " ++ Text.ofNat e.start
    else
      "bytes in position " ++ Text.ofNat e.start ++ "-" ++ Text.ofNat (e.start + e.width - 1)
  "'utf-8' codec can't decode " ++ place ++ ": " ++ e.reason.message

/-- Where encoding stopped: a run of `width` lone surrogates from `start` on. -/
structure EncodeFault where
  start : Nat
  width : Nat
  first : Fin 2048
deriving DecidableEq

/-- The message of an encoding fault. -/
def EncodeFault.message (e : EncodeFault) : Text :=
  let place :=
    if e.width = 1 then
      "character '\\u" ++ Text.ofChars (Nat.toDigits 16 (0xD800 + e.first)) ++ "' in position "
        ++ Text.ofNat e.start
    else
      "characters in position " ++ Text.ofNat e.start ++ "-" ++ Text.ofNat (e.start + e.width - 1)
  "'utf-8' codec can't encode " ++ place ++ ": surrogates not allowed"

/-! ## Decoding -/

/-- A byte that continues a sequence. -/
def isContinuation (b : UInt8) : Bool := 0x80 ≤ b && b ≤ 0xBF

/-- The bytes that may follow a first byte of a sequence of three. -/
def secondOfThree (first second : UInt8) : Bool :=
  (if first = 0xE0 then 0xA0 else 0x80) ≤ second && second ≤ (if first = 0xED then 0x9F else 0xBF)

/-- The bytes that may follow a first byte of a sequence of four. -/
def secondOfFour (first second : UInt8) : Bool :=
  (if first = 0xF0 then 0x90 else 0x80) ≤ second && second ≤ (if first = 0xF4 then 0x8F else 0xBF)

/-- The payload of a continuation byte. -/
def low (b : UInt8) : Nat := b.toNat - 0x80

/-- Decode a text that begins at a given position of the input. -/
def decodeFrom (pos : Nat) : Bytes → Except DecodeFault (List Char)
  | [] => .ok []
  | a :: r =>
    let fault (width : Nat) (reason : Reason) : Except DecodeFault (List Char) :=
      .error ⟨pos, width, a, reason⟩
    if a < 0x80 then
      (decodeFrom (pos + 1) r).map (Char.ofNat a.toNat :: ·)
    else if a < 0xC2 then
      fault 1 .startByte
    else if a < 0xE0 then
      match r with
      | [] => fault 1 .endOfData
      | b :: r =>
        if isContinuation b then
          (decodeFrom (pos + 2) r).map (Char.ofNat ((a.toNat - 0xC0) * 64 + low b) :: ·)
        else
          fault 1 .continuationByte
    else if a < 0xF0 then
      match r with
      | [] => fault 1 .endOfData
      | b :: r =>
        if secondOfThree a b then
          match r with
          | [] => fault 2 .endOfData
          | c :: r =>
            if isContinuation c then
              (decodeFrom (pos + 3) r).map
                (Char.ofNat (((a.toNat - 0xE0) * 64 + low b) * 64 + low c) :: ·)
            else
              fault 2 .continuationByte
        else
          fault 1 .continuationByte
    else if a < 0xF5 then
      match r with
      | [] => fault 1 .endOfData
      | b :: r =>
        if secondOfFour a b then
          match r with
          | [] => fault 2 .endOfData
          | c :: r =>
            if isContinuation c then
              match r with
              | [] => fault 3 .endOfData
              | d :: r =>
                if isContinuation d then
                  (decodeFrom (pos + 4) r).map
                    (Char.ofNat ((((a.toNat - 0xF0) * 64 + low b) * 64 + low c) * 64 + low d) :: ·)
                else
                  fault 3 .continuationByte
            else
              fault 2 .continuationByte
        else
          fault 1 .continuationByte
    else
      fault 1 .startByte

/-- Decode a text. -/
def decode (bytes : Bytes) : Except DecodeFault (List Char) := decodeFrom 0 bytes

/-! ## Encoding -/

/-- The bytes of one character. -/
def encodeChar (c : Char) : Bytes :=
  let n := c.toNat
  if n < 0x80 then
    [UInt8.ofNat n]
  else if n < 0x800 then
    [UInt8.ofNat (0xC0 + n / 64), UInt8.ofNat (0x80 + n % 64)]
  else if n < 0x10000 then
    [UInt8.ofNat (0xE0 + n / 4096), UInt8.ofNat (0x80 + n / 64 % 64), UInt8.ofNat (0x80 + n % 64)]
  else
    [UInt8.ofNat (0xF0 + n / 262144), UInt8.ofNat (0x80 + n / 4096 % 64),
      UInt8.ofNat (0x80 + n / 64 % 64), UInt8.ofNat (0x80 + n % 64)]

/-- The bytes of a list of characters. -/
def encodeChars (cs : List Char) : Bytes := cs.flatMap encodeChar

/-- How many lone surrogates a text begins with. -/
def surrogateRun : Text → Nat
  | .surrogate _ :: t => surrogateRun t + 1
  | _ => 0

/-- Encode a text that begins at a given position of the output text. -/
def encodeFrom (pos : Nat) : Text → Except EncodeFault Bytes
  | [] => .ok []
  | .char c :: t => (encodeFrom (pos + 1) t).map (encodeChar c ++ ·)
  | .surrogate i :: t => .error ⟨pos, surrogateRun t + 1, i⟩

/-- Encode a text; a lone surrogate cannot be encoded. -/
def encode (t : Text) : Except EncodeFault Bytes := encodeFrom 0 t

theorem encodeFrom_ofChars (pos : Nat) (cs : List Char) :
    encodeFrom pos (Text.ofChars cs) = .ok (encodeChars cs) := by
  induction cs generalizing pos with
  | nil => rfl
  | cons c cs ih =>
    have : Text.ofChars (c :: cs) = .char c :: Text.ofChars cs := rfl
    rw [this, encodeFrom, ih]
    simp [Except.map, encodeChars]

/-- A text without lone surrogates can be encoded. -/
theorem encode_ofChars (cs : List Char) : encode (Text.ofChars cs) = .ok (encodeChars cs) :=
  encodeFrom_ofChars 0 cs

end Utf8

end RecordStore
