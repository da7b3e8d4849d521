import RecordStore.Template.Part

/-!
# RecordStore.Template.Bundled

The bundled templates: for pages and for tasks, the form to edit one and the page that shows it.
Texts from records stand in `value` tags, which escape them; the two `raw` tags hold fragments that
are escaped already.
-/

namespace RecordStore.Template

/-! ## Pieces -/

/-- The attributes that tell kind and identifier. -/
def itemAttributes : List Part := [
  .text "\" data-kind=\"", .value "base.kind", .text "\" data-ident=\"", .value "base.ident",
  .text "\""]

/-- The beginning of a form; an update sends the revision it is based on. -/
def formHead : List Part :=
  [.text "<form class=\"item-form"] ++ itemAttributes ++ [.text ">\n  ",
    .block .ifHolds "base.is_for_update" [
      .text "<input type=\"hidden\" name=\"revision\" value=\"", .value "base.revision",
      .text "\">"],
    .text "\n  <label>Name <input type=\"text\" name=\"name\" value=\"", .value "data.name",
    .text "\"></label>\n  <span class=\"error\" id=\"name-error\"></span>\n"]

/-- The end of a form: the text and the button. -/
def formFoot : List Part := [
  .text "  <label>Text <textarea name=\"text\" data-value=\"", .raw "broken_text",
  .text "\"></textarea></label>\n  <button type=\"submit\">",
  .block .ifHolds "base.is_for_update" [.text "Update"],
  .block .unlessHolds "base.is_for_update" [.text "Create"],
  .text "</button>\n</form>\n"]

/-- The heading of a page. -/
def heading : List Part := [.text "  <h1>", .value "name", .text "</h1>\n"]

/-- The end of a page: the text, and who wrote it last. -/
def pageFoot : List Part := [
  .text "  <div class=\"text\">", .raw "rendered_text", .text "</div>\n  <footer>revision ",
  .value "base.revision", .text ", updated ", .value "base.modified_at", .text " by ",
  .value "base.updated_by", .text "</footer>\n</article>\n"]

/-! ## Templates -/

/-- The form for a page. -/
def newPage : List Part := formHead ++ formFoot

/-- The form for a task. -/
def newTask : List Part :=
  formHead ++ [
    .text "  <label>Context <input type=\"text\" name=\"context\" value=\"", .value "data.context",
    .text "\"></label>\n",
    .text "  <label>Deferred until <input type=\"date\" name=\"deferred_until\" value=\"",
    .value "data.deferred_until",
    .text "\"></label>\n  <span class=\"error\" id=\"deferred-error\"></span>\n"]
  ++ formFoot

/-- The page that shows a page. -/
def showPage : List Part :=
  [.text "<article class=\"item"] ++ itemAttributes ++ [.text ">\n"] ++ heading ++ pageFoot

/-- The page that shows a task. -/
def showTask : List Part :=
  [.text "<article class=\"item task"] ++ itemAttributes ++ [
    .text " data-open=\"", .value "is_open", .text "\" data-ready=\"", .value "is_ready",
    .text "\">\n"]
  ++ heading ++ [
    .text "  <p class=\"status\">", .value "status",
    .block .ifHolds "context" [.text " @", .value "context"],
    .block .ifHolds "deferred_until" [.text ", deferred until ", .value "deferred_until"],
    .text "</p>\n"]
  ++ pageFoot

/-- The bundled templates by file name. -/
def bundled : List (Text × List Part) := [
  ("new-simple.html", newPage), ("new-task.html", newTask),
  ("show-simple.html", showPage), ("show-task.html", showTask)]

end RecordStore.Template
