import RecordStore.Failure

/-!
# RecordStore.Response

Answers for the user interface: the fragments to put into named places, together with the places of
errors to blank out (`Response`), and the outcome of checking input (`CheckReport`), which keeps
every failed check in order.
-/

namespace RecordStore

/-! ## Fragments -/

/-- Fragments by the tag of their place, and the error places that are blanked out. -/
structure Response where
  tags : List (Text × Text) := []
  clearedErrors : List Text := []
deriving DecidableEq

namespace Response

/-- Put a value under a key of a list of pairs: in place of an earlier one, or at the end. -/
def putPair (key : Text) (value : α) : List (Text × α) → List (Text × α)
  | [] => [(key, value)]
  | (k, v) :: rest => if k = key then (k, value) :: rest else (k, v) :: putPair key value rest

/-- Put a fragment into a place, in the stead of an earlier one. -/
def addTag (tag : Text) (fragment : Text) (r : Response) : Response :=
  { r with tags := putPair tag fragment r.tags }

/-- Blank out error places; each is named once. -/
def clearErrors (tags : List Text) (r : Response) : Response :=
  { r with clearedErrors := tags.foldl (fun cleared t =>
      if cleared.contains t then cleared else cleared ++ [t]) r.clearedErrors }

/-- The fragment in a place. -/
def tag? (tag : Text) (r : Response) : Option Text := r.tags.lookup tag

theorem lookup_putPair (key key' : Text) (value : α) (l : List (Text × α)) :
    (putPair key value l).lookup key' = if key' = key then some value else l.lookup key' := by
  induction l with
  | nil =>
    by_cases h : key' = key
    · simp [putPair, h]
    · simp [putPair, List.lookup_cons, h, beq_false_of_ne h]
  | cons p l ih =>
    obtain ⟨k, v⟩ := p
    by_cases h : k = key
    · by_cases h' : key' = key
      · simp [putPair, h, h']
      · simp [putPair, List.lookup_cons, h, h', beq_false_of_ne h']
    · by_cases h' : key' = k
      · simp [putPair, h, h']
      · simp [putPair, List.lookup_cons, h, ih, beq_false_of_ne h']

/-- A place shows the last fragment that was put into it. -/
theorem tag?_addTag (tag tag' : Text) (fragment : Text) (r : Response) :
    (r.addTag tag fragment).tag? tag' = if tag' = tag then some fragment else r.tag? tag' :=
  lookup_putPair tag tag' fragment r.tags

end Response

/-! ## Checks -/

/-- The failed checks of an input, in order. -/
structure CheckReport where
  errors : List FieldError := []
deriving DecidableEq

namespace CheckReport

/-- Whether no check failed. -/
def success (r : CheckReport) : Bool := r.errors.isEmpty

/-- Make a check: a failed one is kept. -/
def require (condition : Bool) (tag message : Text) (r : CheckReport) : CheckReport :=
  if condition then r else ⟨r.errors ++ [⟨tag, message⟩]⟩

/-- The messages of all failed checks. -/
def messages (r : CheckReport) : List Text := r.errors.map FieldError.message

/-- The messages of the failed checks of one field. -/
def messagesFor (tag : Text) (r : CheckReport) : List Text :=
  (r.errors.filter fun e => e.tag == tag).map FieldError.message

end CheckReport

end RecordStore
