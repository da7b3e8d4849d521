import RecordStore.Text.Blank
import RecordStore.Text.LineBreak

/-!
# RecordStore.Text.Markup

Markup for free text.  Paragraphs are separated by blank lines; inside a paragraph each line break
is kept as a `<br>` tag, and everything else is escaped.

    one            <p>one<br>
    two            two</p>
                   <p>three</p>
    three
-/

namespace RecordStore.Text

/-- The lines of a text whose breaks are line feeds. -/
def feedLines (t : Text) : List Text := splitOn (.char '\n') t

/-- Group lines into paragraphs: a blank line ends a paragraph and belongs to none. -/
def groupLines : List Text → List (List Text)
  | [] => []
  | line :: rest =>
    if isBlank line then
      groupLines rest
    else
      match rest with
      | [] => [[line]]
      | next :: _ =>
        if isBlank next then
          [line] :: groupLines rest
        else
          match groupLines rest with
          | [] => [[line]]
          | block :: blocks => (line :: block) :: blocks

/-- One paragraph: no blanks at its ends, a tag at each line break. -/
def paragraph (block : List Text) : Text :=
  let body := strip ([.char '\n'].intercalate block)
  "<p>" ++ (escape body).flatMap (fun g =>
    if g = .char '\n' then "<br>\n" else [g]) ++ "</p>"

/-- Free text as markup, one paragraph for each group of lines that blank lines set apart. -/
def markup (t : Text) : Text :=
  [Glyph.char '\n'].intercalate ((groupLines (feedLines (unifyBreaks t))).map paragraph)

end RecordStore.Text
