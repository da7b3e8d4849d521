import RecordStore.Procedure
import RecordStore.Template.Part
import RecordStore.Template.Value
import RecordStore.Text.Blank
import RecordStore.Text.Digit
import RecordStore.Text.Escape
import RecordStore.Text.Word

/-!
# RecordStore.Template

The template language of pages.

    {{name}}                         the value, escaped
    {{{name}}}                       the value as it is
    {{#if name}}…{{/if}}             the body, if the value holds
    {{#unless name}}…{{/unless}}     the body, if it does not
    {{#each name}}…{{/each}}         the body for each item of a list

A name is a path of keys with points between them.  In the body of an `each`, `this` is the item,
`{{@index}}` its position, and the keys of an item that is a dictionary are names.

Rendering goes over the template once for each form, in the order each, if, unless, value.  What is
rendered is set aside and leaves a numbered mark in the template, so that no value is looked at
again; at the end the marks give way to what was set aside.  A body is rendered on its own and sets
aside on its own, so a body that holds the mark of an earlier form does not find what it stands for.
-/

namespace RecordStore.Template

/-! ## Finding the forms -/

/-- Go through a text from left to right: where `find?` takes something off the front, that is
found, and the search goes on behind it; every other glyph stays. -/
def scan (find? : Text → Option (α × Text)) (t : Text) : List (Glyph ⊕ α) :=
  match t with
  | [] => []
  | g :: rest =>
    match find? (g :: rest) with
    | none => .inl g :: scan find? rest
    | some (a, behind) =>
      if _ : behind.length < (g :: rest).length then
        .inr a :: scan find? behind
      else
        .inl g :: scan find? rest
termination_by t.length
decreasing_by
  · exact Nat.lt_succ_self _
  · assumption
  · exact Nat.lt_succ_self _

/-- A glyph of a path: a word character or a point. -/
def isPathGlyph (g : Glyph) : Bool := g.isWord || g = .char '.'

/-- A glyph that the name of a value can begin with. -/
def isNameStart : Glyph → Bool
  | .char c => c.isAlpha || c = '_'
  | .surrogate _ => false

/-- A block: the path of its value, and its body. -/
structure Block where
  path : Text
  body : Text

/-- The block of a form at the front of a text, and what is behind it.  The body reaches to the
first closing tag of the form. -/
def block? (form : BlockForm) (t : Text) : Option (Block × Text) := do
  let t ← Text.dropPrefix? form.openTag t
  let blanks := t.takeWhile Glyph.isBlank
  guard (blanks ≠ [])
  let t := t.dropWhile Glyph.isBlank
  let path := t.takeWhile isPathGlyph
  guard (path ≠ [])
  let t ← Text.dropPrefix? closing (t.dropWhile isPathGlyph)
  let (body, rest) ← Text.cutAt? form.closeTag t
  return (⟨path, body⟩, rest)

/-- The name of a value at the front of a text, and what is behind it. -/
def name? : Text → Option (Text × Text)
  | [] => none
  | g :: t =>
    if isNameStart g then some (g :: t.takeWhile isPathGlyph, t.dropWhile isPathGlyph) else none

/-- A value put into the text: its path, and whether it is escaped. -/
structure Substitution where
  path : Text
  escaped : Bool

/-- The value at the front of a text, and what is behind it. -/
def substitution? (t : Text) : Option (Substitution × Text) :=
  let raw := do
    let t ← Text.dropPrefix? (opening ++ [.char '{']) t
    let (path, t) ← name? t
    let rest ← Text.dropPrefix? (closing ++ [.char '}']) t
    return (⟨path, false⟩, rest)
  let escaped := do
    let t ← Text.dropPrefix? opening t
    let (path, t) ← name? t
    let rest ← Text.dropPrefix? closing t
    return (⟨path, true⟩, rest)
  raw <|> escaped

/-! ## Marks -/

/-- The glyph at both ends of a mark. -/
def markEnd : Glyph := .char '\x00'

/-- The mark of what was set aside as number `n`. -/
def mark (n : Nat) : Text := [markEnd] ++ Text.ofNat n ++ [markEnd]

/-- The mark at the front of a text, as its digits, and what is behind it. -/
def mark? (t : Text) : Option (List Nat × Text) := do
  let t ← Text.dropPrefix? [markEnd] t
  let digits := t.takeWhile fun g => g.digit?.isSome
  guard (digits ≠ [])
  let rest ← Text.dropPrefix? [markEnd] (t.dropWhile fun g => g.digit?.isSome)
  return (digits.filterMap Glyph.digit?, rest)

/-- What a mark stands for. -/
def textOfMark (aside : List Text) (digits : List Nat) : Except Failure Text :=
  if Json.digitLimit < digits.length then
    .error (.longNumeral digits.length)
  else
    match aside[readDigits digits]? with
    | some t => .ok t
    | none => .error (.noPlaceholder (readDigits digits))

/-- Put everything that was set aside in the place of its mark. -/
def restore (aside : List Text) (t : Text) : Except Failure Text :=
  go (scan mark? t)
where
  go : List (Glyph ⊕ List Nat) → Except Failure Text
    | [] => .ok []
    | .inl g :: parts => (go parts).map (g :: ·)
    | .inr digits :: parts => do
      let t ← textOfMark aside digits
      return t ++ (← go parts)

/-! ## Passes -/

/-- A pass over a template, which sets texts aside. -/
abbrev Pass := StateT (List Text) (Except Failure)

/-- Set a text aside and leave its mark. -/
def setAside (t : Text) : Pass Text := do
  let aside ← get
  set (aside ++ [t])
  return mark aside.length

/-- Replace everything that was found, from left to right. -/
def replace (f : α → Pass Text) : List (Glyph ⊕ α) → Pass Text
  | [] => pure []
  | .inl g :: parts => do return g :: (← replace f parts)
  | .inr a :: parts => do
    let t ← f a
    return t ++ (← replace f parts)

/-- The value of a path in a context: null where a key is missing or a value has no keys. -/
def resolve (ctx : Context) (path : Text) : Value :=
  match Text.splitOn (.char '.') path with
  | [] => .null
  | key :: keys => keys.foldl step ((ctx.get? key).getD .null)
where
  step (v : Value) (key : Text) : Value :=
    match v with
    | .dict members => (Context.get? key members).getD .null
    | _ => .null

/-- The text of a value; one that is or holds an integer that is too long has none. -/
def valueText (v : Value) : Except Failure Text :=
  if v.digitsWithin Json.digitLimit then .ok v.shown else .error .longInteger

/-- The context of one item of an `each`. -/
def itemContext (ctx : Context) (item : Value) (index : Nat) : Context :=
  let ctx := (ctx.set "this" item).set "@index" (.int index)
  match item with
  | .dict members => members.foldl (fun ctx m => ctx.set m.1 m.2) ctx
  | _ => ctx

/-- A body with the position of an item in its places. -/
def putIndex (index : Nat) (body : Text) : Text :=
  (scan (fun t => (Text.dropPrefix? indexTag t).map ((), ·)) body).flatMap fun
    | .inl g => [g]
    | .inr _ => Text.ofNat index

/-- The texts of the items of an `each`, from a position on. -/
def eachItem (inner : Context → Text → Except Failure Text) (ctx : Context) (body : Text) :
    Nat → List Value → Except Failure Text
  | _, [] => .ok []
  | index, item :: items => do
    let t ← inner (itemContext ctx item index) (putIndex index body)
    return t ++ (← eachItem inner ctx body (index + 1) items)

/-- What an `each` block becomes. -/
def replaceEach (inner : Context → Text → Except Failure Text) (ctx : Context) (b : Block) :
    Pass Text :=
  match resolve ctx b.path with
  | .list items => do setAside (← eachItem inner ctx b.body 0 items)
  | _ => pure []

/-- What an `if` block becomes, or an `unless` block when `wanted` is false. -/
def replaceIf (wanted : Bool) (inner : Context → Text → Except Failure Text) (ctx : Context)
    (b : Block) : Pass Text :=
  if (resolve ctx b.path).truthy = wanted then do
    setAside (← inner ctx b.body)
  else
    pure []

/-- What a value becomes. -/
def replaceValue (ctx : Context) (s : Substitution) : Pass Text := do
  let t ← valueText (resolve ctx s.path)
  setAside (if s.escaped then t.escape else t)

/-- All passes over a template, one after the other. -/
def passes (inner : Context → Text → Except Failure Text) (ctx : Context) (t : Text) :
    Pass Text := do
  let t ← replace (replaceEach inner ctx) (scan (block? .each) t)
  let t ← replace (replaceIf true inner ctx) (scan (block? .ifHolds) t)
  let t ← replace (replaceIf false inner ctx) (scan (block? .unlessHolds) t)
  replace (replaceValue ctx) (scan substitution? t)

/-- Render a template whose bodies are rendered by `inner`. -/
def renderWith (inner : Context → Text → Except Failure Text) (ctx : Context) (t : Text) :
    Except Failure Text := do
  let (t, aside) ← (passes inner ctx t).run []
  restore aside t

/-- Render a template with blocks nested to a depth at most. -/
def renderDepth : Nat → Context → Text → Except Failure Text
  | 0 => renderWith fun _ _ => .ok []
  | depth + 1 => renderWith (renderDepth depth)

/-- Render a template.  A body has fewer opening braces than the template around it, so their number
bounds the depth. -/
def render (ctx : Context) (t : Text) : Except Failure Text :=
  renderDepth (t.count (.char '{')) ctx t

end RecordStore.Template
