import RecordStore.Procedure
import RecordStore.Json.Writer

/-!
# RecordStore.Record

Stored records: one flat JSON object per item, in which the fields of the header and the fields of
the payload stand side by side.  Keys are sorted, so a record has one written form:

    {
      "created_at": null,
      "ident": "a",
      "kind": "simple",
      "name": "Home"
    }

The text ends with a line feed and is stored as UTF-8.
-/

namespace RecordStore.Record

/-- The bytes of a value. -/
def encode (v : Json) : Except Failure Bytes :=
  if v.digitsWithin Json.digitLimit then
    (Utf8.encode (v.sortKeys.write .unicode ++ [.char '\n'])).mapError .unencodable
  else
    .error .longInteger

/-- The value of a text, an unreadable text being a bad record. -/
def readText (t : Text) : Except Failure Json :=
  (Json.read t).mapError fun
    | .malformed problem place => .deserialization (.malformed problem place)
    | .longInteger digits => .longNumeral digits

/-- The members of a record. -/
def decode (blob : Bytes) : Except Failure Members := do
  let cs ← (Utf8.decode blob).mapError fun e => .deserialization (.undecodable e)
  match ← readText (Text.ofChars cs) with
  | .obj ms => return ms
  | v => throw (.deserialization (.notAnObject v))

/-- The members that are not fields of the header. -/
def payloadPart (ms : Members) : Members := ms.filter fun m => !Header.isField m.1

/-- The header of a record and the fields of its payload. -/
def split (ms : Members) : Except Failure (Header × Members) :=
  let payload := payloadPart ms
  if payload.any fun m => m.1.toChars?.isNone then
    .error (.deserialization (.badHeader [.notPlainText]))
  else
    match Header.ofMembers ms with
    | .ok h => .ok (h, payload)
    | .error faults => .error (.deserialization (.badHeader faults))

/-- The header of a value that should be a record, and the fields of its payload. -/
def splitValue : Json → Except Failure (Header × Members)
  | .obj ms => split ms
  | _ => .error (.deserialization (.badHeader [.notAnObject]))

/-- The names of header fields among some keys, in order. -/
def clashes (keys : List Text) : List Text :=
  (Header.fieldNames.filter keys.contains).mergeSort Text.ble

/-- The members of the record with a header and a payload.  No payload field may have the name of a
header field, and the header must be one that a record may hold. -/
def flatten (h : Header) (payload : Members) : Except Failure Members :=
  match clashes payload.keys with
  | [] =>
    match h.toMembers with
    | .ok ms => .ok (payload.foldl (fun ms m => ms.set m.1 m.2) ms)
    | .error faults => .error (.invalidHeader faults)
  | names => .error (.configuration (.shadowedFields names h.kind.name))

/-- The members of the record with a header and a payload that is given as a value. -/
def flattenValue (h : Header) (payload : Json) : Except Failure Members := do
  let keys ← payload.listedKeys.mapError .keyed
  match clashes (keys.filterMap Json.text?) with
  | [] => flatten h (← payload.members.mapError .keyed)
  | names => throw (.configuration (.shadowedFields names h.kind.name))

end RecordStore.Record
