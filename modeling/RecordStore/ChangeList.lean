import RecordStore.Change
import RecordStore.Item

/-!
# RecordStore.ChangeList

Lists of pending changes.  A list only grows, holds one change per identifier, and is handed over
once: a change that comes later, or for an identifier that has one, is refused.
-/

namespace RecordStore

/-- Pending changes, and whether they were handed over. -/
structure ChangeList where
  changes : List Change := []
  flushed : Bool := false
deriving DecidableEq

namespace ChangeList

/-- Whether the list holds a change for an identifier. -/
def holds (ident : Text) (l : ChangeList) : Bool := l.changes.any fun c => c.ident == ident

/-- Add a change at the end. -/
def append (c : Change) : Procedure ChangeList Unit := do
  let l ← Procedure.state
  if l.flushed then
    Procedure.fail (.programming (.listFlushed c.ident))
  else if l.holds c.ident then
    Procedure.fail (.programming (.duplicateWrite c.ident c.operation.name))
  else
    Procedure.put { l with changes := l.changes ++ [c] }

/-- Add the change that stores an item. -/
def write (i : Item) (op : Operation) : Procedure ChangeList Unit := do
  let blob ← i.encode.lift
  let c ← Procedure.ofExcept (Change.make op i.kind.name i.ident (some blob))
  append c

/-- Add the change that deletes a record. -/
def delete (kind ident : Text) : Procedure ChangeList Unit := append (.delete kind ident)

end ChangeList

end RecordStore
