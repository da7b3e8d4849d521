import RecordStore.Text
import RecordStore.Binary64

/-!
# RecordStore.Json

JSON values.  Integers have any size and stay apart from floating-point numbers; the members of an
object keep their order, and an object built by `Members.set` has no key twice.

Two equalities matter.  Structural equality is the equality of Lean.  `Json.same` is the equality of
values that merging compares fields by: the order of members does not count, `1`, `1.0` and `true`
are equal numbers, and a NaN equals itself only inside a container.
-/

namespace RecordStore

/-- A JSON value. -/
inductive Json where
  | null
  | bool (b : Bool)
  | int (n : Int)
  | float (x : Binary64)
  | str (t : Text)
  | arr (items : List Json)
  | obj (members : List (Text × Json))
deriving Inhabited

/-- The members of an object, in order. -/
abbrev Members := List (Text × Json)

namespace Members

/-- The value under a key. -/
def get? (key : Text) : Members → Option Json
  | [] => none
  | (k, v) :: ms => if k = key then some v else get? key ms

/-- Put a value under a key: in the place of an earlier value, or at the end. -/
def set (key : Text) (value : Json) : Members → Members
  | [] => [(key, value)]
  | (k, v) :: ms => if k = key then (k, value) :: ms else (k, v) :: set key value ms

/-- The keys, in order. -/
def keys (ms : Members) : List Text := ms.map (·.1)

/-- Members given one after the other, the last value of a repeated key counting. -/
def ofList (entries : Members) : Members := entries.foldl (fun ms e => set e.1 e.2 ms) []

theorem get?_set (key key' : Text) (value : Json) (ms : Members) :
    get? key' (set key value ms) = if key = key' then some value else get? key' ms := by
  induction ms with
  | nil => simp [set, get?]
  | cons m ms ih =>
    obtain ⟨k, v⟩ := m
    by_cases hk : k = key
    · subst hk; by_cases h : k = key' <;> simp [set, get?, h]
    · by_cases h : k = key'
      · subst h; simp [set, get?, hk, Ne.symm hk]
      · simp [set, get?, hk, h, ih]

theorem mem_keys_set {key k : Text} {value : Json} {ms : Members} :
    k ∈ keys (set key value ms) ↔ k = key ∨ k ∈ keys ms := by
  induction ms with
  | nil => simp [set, keys]
  | cons m ms ih =>
    obtain ⟨a, v⟩ := m
    simp only [keys] at ih
    by_cases h : a = key
    · subst h; simp [set, keys]
    · simp [set, keys, h, ih]; grind

/-- Setting keeps keys apart. -/
theorem nodup_keys_set {key : Text} {value : Json} {ms : Members} (h : (keys ms).Nodup) :
    (keys (set key value ms)).Nodup := by
  induction ms with
  | nil => simp [set, keys]
  | cons m ms ih =>
    obtain ⟨a, v⟩ := m
    have hn : a ∉ keys ms := (List.nodup_cons.1 h).1
    have hr := ih (List.nodup_cons.1 h).2
    by_cases ha : a = key
    · simpa [set, keys, ha] using h
    · simp only [set, ha, if_false]
      exact List.nodup_cons.2 ⟨fun m => (mem_keys_set.1 m).elim ha hn, hr⟩

/-- No key is repeated in members that were put in one by one. -/
theorem nodup_keys_ofList (entries : Members) : (keys (ofList entries)).Nodup := by
  have go : ∀ (es ms : Members), (keys ms).Nodup →
      (keys (es.foldl (fun ms e => set e.1 e.2 ms) ms)).Nodup := by
    intro es
    induction es with
    | nil => exact fun ms h => h
    | cons e es ih => exact fun ms h => ih _ (nodup_keys_set h)
  exact go entries [] List.nodup_nil

end Members

namespace Json

/-- The name of a value's type in messages. -/
def typeName : Json → Text
  | null => "NoneType"
  | bool _ => "bool"
  | int _ => "int"
  | float _ => "float"
  | str _ => "str"
  | arr _ => "list"
  | obj _ => "dict"

/-- Whether a value is null, false, zero, or a text or container that holds nothing. -/
def isEmpty : Json → Bool
  | null => true
  | bool b => !b
  | int n => n = 0
  | float x => x.isZero
  | str t => t.isEmpty
  | arr items => items.isEmpty
  | obj members => members.isEmpty

/-- The text that a value is, if it is one. -/
def text? : Json → Option Text
  | str t => some t
  | _ => none

/-- The value of an optional text, null when there is none. -/
def ofText? : Option Text → Json
  | none => null
  | some t => str t

/-! ## Equality of values -/

/-- A number that is an integer or counts as one. -/
def asInt? : Json → Option Int
  | bool b => some (if b then 1 else 0)
  | int n => some n
  | _ => none

/-- Equality of numbers and truth values, whatever their form. -/
def sameNumber (a b : Json) : Bool :=
  match a, b with
  | float x, float y => x.sameValue y
  | float x, b => b.asInt?.any x.sameInt
  | a, float y => a.asInt?.any y.sameInt
  | a, b => a.asInt?.isSome && a.asInt? == b.asInt?

/-- Both values are the number that is none. -/
def bothNan : Json → Json → Bool
  | float .nan, float .nan => true
  | _, _ => false

mutual

/-- Equality of values: numbers by value, objects without regard to order. -/
def same : Json → Json → Bool
  | null, null => true
  | str s, str t => s == t
  | arr xs, arr ys => sameItems xs ys
  | obj xs, obj ys => xs.length == ys.length && sameMembers xs ys
  | a, b => sameNumber a b

/-- Equality of arrays, item by item; inside a container a NaN equals itself. -/
def sameItems : List Json → List Json → Bool
  | [], [] => true
  | x :: xs, y :: ys => (bothNan x y || same x y) && sameItems xs ys
  | _, _ => false

/-- Every member of the first object is in the second, with an equal value. -/
def sameMembers : List (Text × Json) → List (Text × Json) → Bool
  | [], _ => true
  | (k, v) :: ms, other =>
    (Members.get? k other).any (fun w => bothNan v w || same v w) && sameMembers ms other

end

/-- Equality of values that are parts of a container. -/
def sameInside (a b : Json) : Bool := bothNan a b || same a b

end Json

end RecordStore
