import RecordStore.Json.Display

/-!
# RecordStore.Kind

Kinds as items carry them.  The bundled kinds, pages and tasks, know themselves by a declared tag; a
kind that was read from a record, or that was added to a registry, is a plain word.  Both are
compared by name; they differ only in how messages show them.
-/

namespace RecordStore

/-- The kind of an item. -/
inductive Kind where
  | page
  | task
  | word (name : Text)
deriving DecidableEq

namespace Kind

/-- The name of a kind, which records and file names hold. -/
def name : Kind → Text
  | page => "simple"
  | task => "task"
  | word n => n

/-- A kind as messages show it. -/
def display : Kind → Text
  | page => "<RecordType.SIMPLE: 'simple'>"
  | task => "<RecordType.TASK: 'task'>"
  | word n => n.quoted

/-- Two kinds are the same when their names are. -/
def same (a b : Kind) : Bool := a.name == b.name

end Kind

end RecordStore
