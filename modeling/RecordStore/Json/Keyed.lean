import RecordStore.Json

/-!
# RecordStore.Json.Keyed

Values taken for keyed ones where only an object has keys and members of its own.

* A value lists something (`Json.listed`): an object its keys, an array its items and a text its
  characters.  What is listed counts as keys if none of it is an array or an object
  (`Json.listedKeys`).
* A value has members (`Json.members`): an object its own, and any other those that it lists, each
  of which must be a text of two characters, a key and its value.
-/

namespace RecordStore.Json

/-- Why a value cannot be taken for a keyed one. -/
inductive KeyFault where
  | notListing (value : Json)
  | notAKey (value : Json)
  | notAPair (place : Nat)
  | wrongLength (place length : Nat)
  | noLookup (value : Json)

/-- The wording of a value that cannot be taken for a keyed one. -/
def KeyFault.message : KeyFault → Text
  | notListing value => "'" ++ value.typeName ++ "' object is not iterable"
  | notAKey value => "unhashable type: '" ++ value.typeName ++ "'"
  | notAPair place =>
    "cannot convert dictionary update sequence element #" ++ Text.ofNat place ++ " to a sequence"
  | wrongLength place length =>
    "dictionary update sequence element #" ++ Text.ofNat place ++ " has length "
      ++ Text.ofNat length ++ "; 2 is required"
  | noLookup value => "'" ++ value.typeName ++ "' object has no attribute 'get'"

/-- What a value lists: the keys of an object, the items of an array, the characters of a text. -/
def listed : Json → Option (List Json)
  | .arr items => some items
  | .obj ms => some (ms.map fun m => .str m.1)
  | .str t => some (t.map fun g => .str [g])
  | _ => none

/-- A value that can be a key: any but an array or an object. -/
def isKey : Json → Bool
  | .arr _ | .obj _ => false
  | _ => true

/-- What a value lists, if all of it can be keys. -/
def listedKeys (v : Json) : Except KeyFault (List Json) :=
  match v.listed with
  | none => .error (.notListing v)
  | some keys =>
    match keys.find? fun k => !k.isKey with
    | some k => .error (.notAKey k)
    | none => .ok keys

/-- The members that listed values are, the first of them being at a place. -/
def pairs (place : Nat) : List Json → Except KeyFault Members
  | [] => .ok []
  | .str [k, v] :: rest => (pairs (place + 1) rest).map (([k], .str [v]) :: ·)
  | .str t :: _ => .error (.wrongLength place t.length)
  | _ :: _ => .error (.notAPair place)

/-- The members that a value has, given one after the other. -/
def members : Json → Except KeyFault Members
  | .obj ms => .ok ms
  | v => (listedKeys v).bind (pairs 0)

/-- An object has its own members. -/
@[simp]
theorem members_obj (ms : Members) : members (.obj ms) = .ok ms := rfl

end RecordStore.Json
