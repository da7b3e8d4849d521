import RecordStore.Text

/-!
# RecordStore.Template.Part

Templates as trees, and the text a tree is written as.

    text               stands as it is
    value n            {{n}}
    raw n              {{{n}}}
    index              {{@index}}
    block if n body    {{#if n}}…{{/if}}

`Template.print` writes a template; the bundled templates are given as trees.
-/

namespace RecordStore.Template

/-! ## Tags -/

/-- Two braces that open a tag. -/
def opening : Text := [.char '{', .char '{']

/-- Two braces that close a tag. -/
def closing : Text := [.char '}', .char '}']

/-- The tag that stands for the position of an item. -/
def indexTag : Text := opening ++ "@index" ++ closing

/-- The forms of blocks: the body for each item of a list, the body if a value holds, and the body
if it does not. -/
inductive BlockForm where
  | each
  | ifHolds
  | unlessHolds
deriving DecidableEq

namespace BlockForm

/-- The word of a form in its tags. -/
def word : BlockForm → Text
  | each => "each"
  | ifHolds => "if"
  | unlessHolds => "unless"

/-- The beginning of the tag that opens a block. -/
def openTag (form : BlockForm) : Text := opening ++ [.char '#'] ++ form.word

/-- The tag that closes a block. -/
def closeTag (form : BlockForm) : Text := opening ++ [.char '/'] ++ form.word ++ closing

end BlockForm

/-! ## Trees -/

/-- A part of a template. -/
inductive Part where
  | text (t : Text)
  | value (path : Text)
  | raw (path : Text)
  | index
  | block (form : BlockForm) (path : Text) (body : List Part)

mutual

/-- A part as text. -/
def Part.print : Part → Text
  | .text t => t
  | .value path => opening ++ path ++ closing
  | .raw path => opening ++ [.char '{'] ++ path ++ closing ++ [.char '}']
  | .index => indexTag
  | .block form path body =>
    form.openTag ++ [.char ' '] ++ path ++ closing ++ print body ++ form.closeTag

/-- A template as text. -/
def print : List Part → Text
  | [] => []
  | p :: ps => p.print ++ print ps

end

end RecordStore.Template
