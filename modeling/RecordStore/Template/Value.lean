import RecordStore.Kind

/-!
# RecordStore.Template.Value

The values that templates show: JSON values, and kinds, which stand for their names but keep their
own form inside lists.
-/

namespace RecordStore.Template

/-- A value in the context of a template. -/
inductive Value where
  | null
  | bool (b : Bool)
  | int (n : Int)
  | float (x : Binary64)
  | text (t : Text)
  | kind (k : Kind)
  | list (items : List Value)
  | dict (members : List (Text × Value))

/-- The names that a template can use, with their values. -/
abbrev Context := List (Text × Value)

namespace Context

/-- The value of a name. -/
def get? (name : Text) : Context → Option Value
  | [] => none
  | (k, v) :: rest => if k = name then some v else get? name rest

/-- Give a name a value, hiding an earlier one. -/
def set (name : Text) (v : Value) (ctx : Context) : Context := (name, v) :: ctx

end Context

namespace Value

mutual

/-- A JSON value as a template shows it. -/
def ofJson : Json → Value
  | .null => null
  | .bool b => bool b
  | .int n => int n
  | .float x => float x
  | .str t => text t
  | .arr items => list (ofItems items)
  | .obj members => dict (ofMembers members)

/-- The items of an array as a template shows them. -/
def ofItems : List Json → List Value
  | [] => []
  | v :: vs => ofJson v :: ofItems vs

/-- The members of an object as a template shows them. -/
def ofMembers : List (Text × Json) → List (Text × Value)
  | [] => []
  | (k, v) :: ms => (k, ofJson v) :: ofMembers ms

end

mutual

/-- A value inside a list, or a list as a whole. -/
def display : Value → Text
  | null => "None"
  | bool b => if b then "True" else "False"
  | int n => Text.ofInt n
  | float x => Text.ofChars (x.text Json.displaySpelling)
  | text t => t.quoted
  | kind k => k.display
  | list items => Text.bracketed (displayItems items)
  | dict members => "\x7b" ++ Text.join ", " (displayMembers members) ++ "\x7d"

/-- The items of a list, each as it is shown inside. -/
def displayItems : List Value → List Text
  | [] => []
  | v :: vs => display v :: displayItems vs

/-- The members of a dictionary, each as it is shown inside. -/
def displayMembers : List (Text × Value) → List Text
  | [] => []
  | (k, v) :: ms => (k.quoted ++ ": " ++ display v) :: displayMembers ms

end

mutual

/-- Every integer of the value has at most so many digits. -/
def digitsWithin (limit : Nat) : Value → Bool
  | int n => (Nat.toDigits 10 n.natAbs).length ≤ limit
  | list items => digitsWithinItems limit items
  | dict members => digitsWithinMembers limit members
  | _ => true

/-- Every integer of the items has at most so many digits. -/
def digitsWithinItems (limit : Nat) : List Value → Bool
  | [] => true
  | v :: vs => digitsWithin limit v && digitsWithinItems limit vs

/-- Every integer of the members has at most so many digits. -/
def digitsWithinMembers (limit : Nat) : List (Text × Value) → Bool
  | [] => true
  | (_, v) :: ms => digitsWithin limit v && digitsWithinMembers limit ms

end

/-- A value on its own in the text of a page. -/
def shown : Value → Text
  | null => []
  | bool b => if b then "true" else "false"
  | text t => t
  | kind k => k.name
  | v => v.display

/-- Whether a condition on the value holds: not for null, false, zero and what is empty. -/
def truthy : Value → Bool
  | null => false
  | bool b => b
  | int n => n ≠ 0
  | float x => !x.isZero
  | text t => !t.isEmpty
  | kind k => !k.name.isEmpty
  | list items => !items.isEmpty
  | dict members => !members.isEmpty

end Value

end RecordStore.Template
