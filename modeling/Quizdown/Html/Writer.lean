import Quizdown.Markdown.Event
import Quizdown.Xml.Writer

/-!
HTML of a sequence of events. The writer is a state machine: `emit` says what an event adds to the
output in a state, `next` which state follows. Raw HTML passes unchanged; every other text is
escaped. List items are written without the paragraphs around their text and without check boxes.
-/
set_option autoImplicit false

namespace Quizdown

structure HtmlWriter where
  /-- Writes the content of a list item: top-level paragraphs and check boxes are left out. -/
  forItem : Bool := false
  lists : Nat := 0
  /-- Number of images that are open; inside one only plain text is written. -/
  images : Nat := 0
  columns : List Alignment := []
  cell : Nat := 0
  inTableHead : Bool := false
  hadParagraph : Bool := false
deriving DecidableEq, Repr

namespace HtmlWriter

def block : HtmlWriter := {}

def item : HtmlWriter where
  forItem := true

/-- Paragraphs are left out here: this is the text of a list item itself. -/
def bare (w : HtmlWriter) : Bool := w.forItem && w.lists == 0

def headingName (level : Nat) : Text := 'h' :: Text.ofNat level

def cellStyle : Option Alignment → Text
  | some .left => " style=\"text-align: left\"".toList
  | some .center => " style=\"text-align: center\"".toList
  | some .right => " style=\"text-align: right\"".toList
  | _ => []

def cellName (w : HtmlWriter) : Text := if w.inTableHead then "th".toList else "td".toList

def target (name url title : Text) : Text :=
  ' ' :: name ++ "=\"".toList ++ escapeValue url ++ ['"'] ++
    (if title.isEmpty then [] else " title=\"".toList ++ escapeValue title ++ ['"'])

def codeOpening : Option Text → Text
  | none => "<pre><code>".toList
  | some info =>
    if info.isEmpty then "<pre><code>".toList
    else "<pre><code class=\"language-".toList ++
      escapeValue ((Text.words info).headD []) ++ "\">".toList

def opening (w : HtmlWriter) : Tag → Text
  | .paragraph =>
    if w.bare then (if w.hadParagraph then "<br />".toList else []) else "<p>".toList
  | .heading level => '<' :: headingName level ++ ['>']
  | .blockQuote => "<blockquote>".toList
  | .codeBlock info => codeOpening info
  | .list none => "<ul>".toList
  | .list (some start) =>
    if start = 1 then "<ol>".toList
    else "<ol start=\"".toList ++ Text.ofNat start ++ "\">".toList
  | .item => "<li>".toList
  | .table _ => "<table>".toList
  | .tableHead => "<thead><tr>".toList
  | .tableRow => "<tr>".toList
  | .tableCell => '<' :: w.cellName ++ cellStyle w.columns[w.cell]? ++ ['>']
  | .emphasis => "<em>".toList
  | .strong => "<strong>".toList
  | .strikethrough => "<s>".toList
  | .superscript => "<sup>".toList
  | .subscript => "<sub>".toList
  | .link url title => "<a".toList ++ target "href".toList url title ++ ['>']
  | .image url title => "<img".toList ++ target "src".toList url title ++ " alt=\"".toList
  | .definitionList => "<dl>".toList
  | .definitionTitle => "<dt>".toList
  | .definition => "<dd>".toList
  | .footnoteDefinition | .htmlBlock | .metadata => []

def closing (w : HtmlWriter) : TagEnd → Text
  | .paragraph => if w.bare then [] else "</p>".toList
  | .heading level => "</".toList ++ headingName level ++ ['>']
  | .blockQuote => "</blockquote>".toList
  | .codeBlock => "</code></pre>".toList
  | .list ordered => if ordered then "</ol>".toList else "</ul>".toList
  | .item => "</li>".toList
  | .table => "</tbody></table>".toList
  | .tableHead => "</tr></thead><tbody>".toList
  | .tableRow => "</tr>".toList
  | .tableCell => "</".toList ++ w.cellName ++ ['>']
  | .emphasis => "</em>".toList
  | .strong => "</strong>".toList
  | .strikethrough => "</s>".toList
  | .superscript => "</sup>".toList
  | .subscript => "</sub>".toList
  | .link => "</a>".toList
  | .image => "\" />".toList
  | .definitionList => "</dl>".toList
  | .definitionTitle => "</dt>".toList
  | .definition => "</dd>".toList
  | .footnoteDefinition | .htmlBlock | .metadata => []

def checkBox (checked : Bool) : Text :=
  if checked then "<input type=\"checkbox\" checked disabled />".toList
  else "<input type=\"checkbox\" disabled />".toList

/-- What an event adds inside the `alt` value of an image: text only, escaped as a value. The end
of the outermost image closes the value. -/
def emitAlt (w : HtmlWriter) : Event → Text
  | .text s | .code s => escapeValue s
  | .softBreak | .hardBreak => [' ']
  | .stop .image => if w.images = 1 then w.closing .image else []
  | _ => []

def emit (w : HtmlWriter) (e : Event) : Text :=
  if w.images ≠ 0 then w.emitAlt e
  else
    match e with
    | .start tag => w.opening tag
    | .stop tag => w.closing tag
    | .text s => escapeText s
    | .code s => "<code>".toList ++ escapeText s ++ "</code>".toList
    | .html s | .inlineHtml s => s
    | .softBreak => ['\n']
    | .hardBreak => "<br />".toList
    | .rule => "<hr />".toList
    | .taskMarker checked => if w.forItem then [] else checkBox checked
    | .footnoteReference _ | .inlineMath _ | .displayMath _ => []

def afterStart (w : HtmlWriter) : Tag → HtmlWriter
  | .paragraph => if w.bare then { w with hadParagraph := true } else w
  | .list _ => { w with lists := w.lists + 1 }
  | .table columns => { w with columns := columns }
  | .tableHead => { w with inTableHead := true, cell := 0 }
  | .tableRow => { w with cell := 0 }
  | .image _ _ => { w with images := 1 }
  | _ => w

def afterStop (w : HtmlWriter) : TagEnd → HtmlWriter
  | .list _ => { w with lists := w.lists - 1 }
  | .tableHead => { w with inTableHead := false }
  | .tableCell => { w with cell := w.cell + 1 }
  | _ => w

def next (w : HtmlWriter) (e : Event) : HtmlWriter :=
  match e with
  | .start tag =>
    if w.images = 0 then w.afterStart tag
    else match tag with
      | .image _ _ => { w with images := w.images + 1 }
      | _ => w
  | .stop tag =>
    if w.images = 0 then w.afterStop tag
    else match tag with
      | .image => { w with images := w.images - 1 }
      | _ => w
  | _ => w

def render (w : HtmlWriter) : List Event → Text
  | [] => []
  | e :: rest => w.emit e ++ (w.next e).render rest

def run (w : HtmlWriter) (events : List Event) : HtmlWriter := events.foldl next w

end HtmlWriter
end Quizdown
