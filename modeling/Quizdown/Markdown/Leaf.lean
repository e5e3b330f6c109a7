import Quizdown.Markdown.BlockStart
import Quizdown.Markdown.Node

/-!
Blocks that hold no other blocks: paragraphs, code, raw HTML and tables. Each reads its lines
behind the marks of the containers around it, and stops before the first line that is not its own.
-/
set_option autoImplicit false

namespace Quizdown
namespace Markdown

/-- What a line needs in front to belong to a container. -/
inductive Margin
  | quote
  | indent (columns : Nat)
  | free
deriving DecidableEq, Repr

def Margin.pass? (c : Cursor) : Margin → Option Cursor
  | quote => BlockStart.quote? c
  | indent columns =>
    let (n, inside) := c.takeSpaces columns
    if n = columns || inside.atEnd then some inside else none
  | free => some c

def passMargins (c : Cursor) : List Margin → Nat × Cursor
  | [] => (0, c)
  | m :: rest =>
    match m.pass? c with
    | some inside => let (n, c) := passMargins inside rest; (n + 1, c)
    | none => (0, c)

def behindMargins? (margins : List Margin) (l : Line) : Option Cursor :=
  let (n, c) := passMargins (Cursor.ofLine l) margins
  if n = margins.length then some c else none

def lineFeed (l : Line) : Text := if l.ending = ['\r', '\n'] then ['\n'] else l.ending

def verbatim (l : Line) (c : Cursor) : Text :=
  List.replicate c.pending ' ' ++ c.rest ++ lineFeed l

def tableColumns? (margins : List Margin) (head : Text) (next : Option Line) :
    Option (List Alignment) :=
  match (next.bind (behindMargins? margins)).bind BlockStart.columns? with
  | some columns => if columns.length = BlockStart.headColumns head then some columns else none
  | none => none

structure ParagraphRest where
  lines : List BodyLine
  underline : Option (Nat × Line)
  after : List Line

/-- Reads the further lines of a paragraph. A line may lack margins as long as it begins no block,
and a line with an indentation of four columns never begins one. -/
def paragraphRest (margins : List Margin) : List Line → ParagraphRest
  | [] => ⟨[], none, []⟩
  | l :: rest =>
    let (n, c) := passMargins (Cursor.ofLine l) margins
    let current := n = margins.length
    let (indent, text) := c.takeSpaces 4
    let shallow := indent < 4
    let level := if shallow && current then BlockStart.underline? text.rest else none
    match level with
    | some level => ⟨[], some (level, l), rest⟩
    | none =>
      let ends := shallow &&
        (BlockStart.interrupts (!current) text.rest rest.head? ||
          (text.rest.head? = some '|' && (tableColumns? margins text.rest rest.head?).isSome))
      if ends || c.skipIndentation.atEnd then ⟨[], none, l :: rest⟩
      else
        let more := paragraphRest margins rest
        { more with lines := BodyLine.ofCursor l c :: more.lines }

/-- The cells of a row, cut at bars without a backslash in front. A bar at either end of the row
adds no cell. The number bounds the cells. -/
def cells : Nat → Source → List Source
  | 0, _ => []
  | fuel + 1, s =>
    let s := match s with
      | g :: rest => if g.char = '|' then rest else s
      | [] => s
    match Source.trimStart s with
    | [] => []
    | s =>
      let (cell, rest) := cut ' ' s
      Source.trimEnd cell :: cells fuel rest
where
  cut (before : Char) : Source → Source × Source
    | [] => ([], [])
    | g :: rest =>
      if g.char = '|' && before ≠ '\\' then ([], g :: rest)
      else let (cell, after) := cut g.char rest; (g :: cell, after)

def fitCells (width : Nat) (row : List Source) : List Source :=
  row.take width ++ List.replicate (width - row.length) []

def tableRows (margins : List Margin) (width : Nat) : List Line → List (List Source) × List Line
  | [] => ([], [])
  | l :: rest =>
    match behindMargins? margins l with
    | none => ([], l :: rest)
    | some c =>
      let body := BodyLine.ofCursor l c
      let row := cells (body.text.length + 1) body.source
      if BlockStart.interrupts true body.text rest.head? || row.isEmpty then ([], l :: rest)
      else
        let (rows, after) := tableRows margins width rest
        (fitCells width row :: rows, after)

/-- The further lines of an indented code block. Blank lines are kept only in front of others, but
passed in any case: `held` are those whose keeping is not decided yet. -/
def indentedCode (margins : List Margin) (held : Text) : List Line → Text × List Line
  | [] => ([], [])
  | l :: rest =>
    match behindMargins? margins l with
    | none => ([], l :: rest)
    | some c =>
      let (indent, inside) := c.takeSpaces 4
      if indent < 4 && !inside.atEnd then ([], l :: rest)
      else
        let text := verbatim l inside
        if inside.atBlank then indentedCode margins (held ++ text) rest
        else
          let (more, after) := indentedCode margins [] rest
          (held ++ text ++ more, after)

def fencedCode (margins : List Margin) (indent : Nat) (fence : BlockStart.Fence) :
    List Line → Text × List Line
  | [] => ([], [])
  | l :: rest =>
    match behindMargins? margins l with
    | none => ([], l :: rest)
    | some c =>
      let (_, inside) := c.takeSpaces indent
      let (deeper, mark) := inside.takeSpaces 4
      if deeper < 4 && fence.closedBy mark.rest then ([], rest)
      else
        let (more, after) := fencedCode margins indent fence rest
        (verbatim l inside ++ more, after)

def htmlLines (margins : List Margin) (stop : RawHtml.BlockEnd) :
    Bool → List Line → List (Nat × Text) × List Line
  | true, lines => ([], lines)
  | _, [] => ([], [])
  | false, l :: rest =>
    match behindMargins? margins l with
    | none => ([], l :: rest)
    | some c =>
      if stop = .blankLine && c.atBlank then ([], l :: rest)
      else
        let (more, after) := htmlLines margins stop (endsHtml stop c.rest) rest
        ((c.pending, c.rest ++ lineFeed l) :: more, after)
where
  endsHtml (stop : RawHtml.BlockEnd) (s : Text) : Bool :=
    match stop with
    | .mark text => Text.contains text s
    | .blankLine => false

end Markdown
end Quizdown
