import Quizdown.Markdown.Leaf

/-!
Reading a Markdown document: CommonMark with tables, strikethrough and task lists. Open containers
form a stack; each line passes the margins of those it continues, closes the others, opens new ones
and goes to a leaf block, which may take further lines. The result is the tree of all blocks and
the reference definitions, and from them the events.
-/
set_option autoImplicit false

namespace Quizdown
namespace Markdown

inductive Frame
  | quote (start : Nat) (children : List Node)
  | item (indent : Nat) (children : List Node)
  | list (start : Nat) (mark : Char) (number : Option Nat) (tight : Bool) (items : List (List Node))

def Frame.margin : Frame → Margin
  | quote _ _ => .quote
  | item indent _ => .indent indent
  | list _ _ _ _ _ => .free

structure Reader where
  size : Nat
  frames : List Frame := []
  done : List Node := []
  refs : References := []
  blank : Bool := false
  fresh : Bool := false
  task : Option Bool := none

namespace Reader

def margins (r : Reader) : List Margin := (r.frames.map Frame.margin).reverse

def add (r : Reader) (n : Node) : Reader :=
  match r.frames with
  | .quote start children :: rest => { r with frames := .quote start (n :: children) :: rest }
  | .item indent children :: rest => { r with frames := .item indent (n :: children) :: rest }
  | _ => { r with done := n :: r.done }

def addItem (r : Reader) (item : List Node) : Reader :=
  match r.frames with
  | .list start mark number tight items :: rest =>
    { r with frames := .list start mark number tight (item :: items) :: rest }
  | _ => r

def closeOne (r : Reader) (stop : Nat) : Reader :=
  match r.frames with
  | [] => r
  | .quote start children :: rest =>
    ({ r with frames := rest } : Reader).add (.quote ⟨start, stop⟩ children.reverse)
  | .item _ children :: rest => ({ r with frames := rest } : Reader).addItem children.reverse
  | .list start _ number tight items :: rest =>
    ({ r with frames := rest, fresh := r.fresh && !tight } : Reader).add
      (.list ⟨start, stop⟩ number tight items.reverse)

def close (r : Reader) (stop : Nat) : Nat → Reader
  | 0 => r
  | n + 1 => (r.closeOne stop).close stop n

def finishFresh (r : Reader) (stop : Nat) : Reader :=
  let r :=
    match r.fresh && r.blank, r.frames with
    | true, .item _ _ :: _ => r.closeOne stop
    | _, _ => r
  { r with fresh := false }

/-- The list is not tight: a blank line stood between its items or inside one. -/
def loosen : List Frame → List Frame
  | .list start mark number _ items :: rest => .list start mark number false items :: rest
  | frames => frames

/-- Before a block that is no list item: a list that waits for items ends, and a blank line before
the block makes the list around its item loose. -/
def finishList (r : Reader) (stop : Nat) : Reader :=
  let r := r.finishFresh stop
  let r :=
    match r.frames with
    | .list _ _ _ _ _ :: _ => r.closeOne stop
    | _ => r
  match r.blank, r.frames with
  | true, f :: rest => { r with frames := f :: loosen rest, blank := false }
  | _, _ => { r with blank := false }

def continueList (r : Reader) (start : Nat) (m : BlockStart.ListMarker) : Reader :=
  let r := r.finishFresh start
  let startList (r : Reader) : Reader :=
    let r := r.finishList start
    { r with frames := .list start m.mark m.number true [] :: r.frames, blank := false }
  match r.frames with
  | .list _ mark _ _ _ :: _ =>
    if mark = m.mark then
      if r.blank then { r with frames := loosen r.frames, blank := false } else r
    else startList r
  | _ => startList r

/-- Opens the containers that begin on a line. Answers the place behind their marks, or nothing
if the line holds no more. The number bounds the containers. -/
def openContainers (l : Line) : Nat → Reader → Cursor → Reader × Option Cursor
  | 0, r, c => (r, some c)
  | fuel + 1, r, c =>
    let (indent, inside) := c.takeSpaces 4
    if 4 ≤ indent then (r, some c)
    else
      match BlockStart.listItem? indent inside with
      | some (m, width, content) =>
        let r := r.continueList c.offset m
        let r := { r with frames := .item width [] :: r.frames }
        if content.atBlank then ({ r with fresh := true }, none)
        else
          match BlockStart.task? (!l.ending.isEmpty) content with
          | none => openContainers l fuel r content
          | some (checked, after) =>
            if after.atBlank then
              let marker : Node := .taskMarker ⟨content.offset, after.offset⟩ checked
              ({ r.add marker with fresh := true }, none)
            else openContainers l fuel { r with task := some checked } after
      | none =>
        match BlockStart.quote? inside with
        | some content =>
          let r := r.finishList l.offset
          openContainers l fuel { r with frames := .quote inside.offset [] :: r.frames } content
        | none => (r, some c)

def blankLine (r : Reader) : Reader :=
  match r.frames with
  | .quote _ _ :: _ => r
  | .item indent children :: rest =>
    { r with frames := .item (if r.fresh then 0 else indent) children :: rest, blank := true }
  | _ => { r with blank := true }

def position (r : Reader) (after : List Line) : Nat := (after.head?.map Line.offset).getD r.size

def definition? (margins : List Margin) (c : Cursor) (rest : List Line) :
    Option ((Text × LinkTarget) × List Line) :=
  if c.rest.head? = some '[' then
    let more := paragraphRest margins rest
    let text := Text.join ['\n'] (c.rest :: more.lines.map BodyLine.text)
    (Link.definition? text).map fun (label, target, n) =>
      ((label, target), rest.drop ((text.take n).filter (· == '\n')).length)
  else none

def paragraph (r : Reader) (l : Line) (c : Cursor) (rest : List Line) : Reader × List Line :=
  let first := BodyLine.ofCursor l c
  let task := r.task
  let r := { r with task := none }
  match tableColumns? r.margins first.text rest.head? with
  | some columns =>
    let (rows, after) := tableRows r.margins columns.length rest.tail
    let head := fitCells columns.length (cells (first.text.length + 1) first.source)
    let span : Span := ⟨first.textOffset, r.position after⟩
    (r.add (.table span columns head rows), after)
  | none =>
    let more := paragraphRest r.margins rest
    let lines := first :: more.lines
    let span : Span := ⟨first.textOffset, r.position more.after⟩
    let source := BodyLine.toSource lines
    match more.underline with
    | some (level, underline) =>
      (r.add (.heading ⟨span.start, underline.stop⟩ level task source), more.after)
    | none => (r.add (.paragraph span task source), more.after)

/-- Reads the block that begins at a place, which is not blank and begins no container. -/
def leaf (r : Reader) (l : Line) (c : Cursor) (rest : List Line) : Reader × List Line :=
  let (indent, text) := c.takeSpaces 4
  if indent = 4 then
    let r := r.finishList l.offset
    let (more, after) := indentedCode r.margins [] rest
    (r.add (.code ⟨text.offset, r.position after⟩ none (verbatim l text ++ more)), after)
  else
    let ending := r.finishList l.offset
    match RawHtml.block? text.rest with
    | some stop =>
      let r := ending
      let (more, after) := htmlLines r.margins stop (htmlLines.endsHtml stop text.rest) rest
      let line := (max c.pending indent, text.rest ++ lineFeed l)
      (r.add (.html ⟨text.offset, r.position after⟩ (line :: more)), after)
    | none =>
      if BlockStart.isRule text.rest then
        (ending.add (.rule ⟨text.offset, l.stop⟩), rest)
      else
        match BlockStart.heading? text.rest with
        | some (level, content) =>
          let start := text.offset + (text.rest.takeWhile fun x => x == '#').length
          let gap := ((text.rest.dropWhile fun x => x == '#').takeWhile Line.isSpace).length
          let source := Source.ofText (start + gap) content
          (ending.add (.heading ⟨text.offset, l.stop⟩ level none source), rest)
        | none =>
          match BlockStart.fence? text.rest with
          | some fence =>
            let r := ending
            let (content, after) := fencedCode r.margins indent fence rest
            let span : Span := ⟨text.offset, r.position after⟩
            (r.add (.code span (some (Link.unescape fence.info)) content), after)
          | none =>
            match definition? ending.margins text rest with
            | some (definition, after) =>
              ({ ending with refs := ending.refs ++ [definition] }, after)
            | none => ending.paragraph l text rest

def block (r : Reader) (l : Line) (rest : List Line) : Reader × List Line :=
  let (n, c) := passMargins (Cursor.ofLine l) r.margins
  let r := r.close l.offset (r.frames.length - n)
  match openContainers l (l.body.length + 1) r c with
  | (r, none) => (r, rest)
  | (r, some c) => if c.atBlank then (r.blankLine, rest) else r.leaf l c rest

def run : Nat → Reader → List Line → Reader
  | 0, r, _ => r.close r.size r.frames.length
  | _, r, [] => r.close r.size r.frames.length
  | fuel + 1, r, l :: rest =>
    let (r, rest) := r.block l rest
    run fuel r rest

end Reader

def readNodes (document : Text) : List Node × References :=
  let lines := Line.split document
  let r := Reader.run lines.length { size := Text.byteSize document } lines
  (r.done.reverse, r.refs)

def read (document : Text) : List PlacedEvent :=
  let (nodes, refs) := readNodes document
  Node.allEvents refs false nodes

end Markdown
end Quizdown
