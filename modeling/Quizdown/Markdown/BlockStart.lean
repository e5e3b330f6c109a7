import Quizdown.Markdown.Event
import Quizdown.Markdown.Html

/-!
How blocks begin: thematic breaks, headings, fences, table delimiter rows, block quotes and list
items, each recognised from the rest of one line.
-/
set_option autoImplicit false

namespace Quizdown
namespace BlockStart

def isRule : Text → Bool
  | c :: s =>
    (c == '*' || c == '-' || c == '_') &&
      (c :: s).all (fun x => x == c || x == ' ' || x == '\t') &&
      3 ≤ ((c :: s).filter (· == c)).length
  | [] => false

/-- Level and content of a heading with number signs. A closing run of number signs is dropped
after a space. -/
def heading? (s : Text) : Option (Nat × Text) :=
  let level := (s.takeWhile (· == '#')).length
  let after := s.drop level
  if 1 ≤ level && level ≤ 6 && (after.isEmpty || after.head?.any Line.isSpace) then
    let content := after.dropWhile Line.isSpace
    let trimmed := Text.trimEndOf ' ' content
    let opened := Text.trimEndOf '#' trimmed
    if opened.isEmpty then some (level, [])
    else if opened.getLast? = some ' ' then some (level, Text.trimEndOf ' ' opened)
    else some (level, trimmed)
  else none

def underline? : Text → Option Nat
  | c :: s =>
    if (c = '=' || c = '-') && Line.isBlankText (s.dropWhile (· == c)) then
      some (if c = '=' then 1 else 2)
    else none
  | [] => none

structure Fence where
  mark : Char
  width : Nat
  info : Text
deriving DecidableEq, Repr

def trimSpaces (s : Text) : Text :=
  ((s.dropWhile Line.isSpace).reverse.dropWhile Line.isSpace).reverse

def fence? : Text → Option Fence
  | c :: s =>
    let width := ((c :: s).takeWhile (· == c)).length
    let info := (c :: s).drop width
    if (c == '~' || (c == '`' && !info.contains '`')) && 3 ≤ width then
      some ⟨c, width, trimSpaces info⟩
    else none
  | [] => none

def Fence.closedBy (f : Fence) (s : Text) : Bool :=
  let marks := (s.takeWhile (· == f.mark)).length
  f.width ≤ marks && (s.drop marks).all (· == ' ')

structure ColumnScan where
  columns : List Alignment := []
  column : Alignment := .unset
  fresh : Bool := true
  hyphen : Bool := false
  anyBar : Bool := false
  anyHyphen : Bool := false

def ColumnScan.step (t : ColumnScan) (c : Char) : Option ColumnScan :=
  if c = ' ' then some t
  else if c = ':' then
    let column : Alignment :=
      match t.fresh, t.column with
      | true, .unset => .left
      | false, .left => .center
      | false, .unset => .right
      | _, a => a
    some { t with column, fresh := false }
  else if c = '-' then some { t with fresh := false, hyphen := true, anyHyphen := true }
  else if c = '|' then
    if t.hyphen then
      some { t with
        columns := t.column :: t.columns, column := .unset, fresh := true, hyphen := false,
        anyBar := true }
    else none
  else none

def columns? (c : Cursor) : Option (List Alignment) :=
  let (indent, c) := c.takeSpaces 4
  if 3 < indent then none
  else
    let (bar, cells) := match c.rest with
      | '|' :: s => (true, s)
      | s => (false, s)
    match cells.foldlM ColumnScan.step { anyBar := bar } with
    | none => none
    | some t =>
      if t.anyBar && t.anyHyphen then
        some (if t.fresh then t.columns.reverse else (t.column :: t.columns).reverse)
      else none

def bars (before : Char) : Text → Nat
  | [] => 0
  | c :: s => (if c = '|' && before ≠ '\\' then 1 else 0) + bars c s

def endsWithBar (s : Text) : Bool :=
  match s.reverse.dropWhile Line.isSpace with
  | '|' :: before => before.head? != some '\\'
  | _ => false

def headColumns (s : Text) : Nat :=
  let n := bars ' ' s
  if n = 0 then 0
  else
    let inner := if (s.dropWhile Line.isSpace).head? = some '|' then n - 1 else n
    if endsWithBar s then inner else inner + 1

def quote? (c : Cursor) : Option Cursor :=
  let (_, c) := c.takeSpaces 3
  match c.rest with
  | '>' :: _ => some (c.advance.takeSpaces 1).2
  | _ => none

structure ListMarker where
  mark : Char
  number : Option Nat
  width : Nat
deriving DecidableEq, Repr

def marker? (s : Text) : Option ListMarker :=
  match s with
  | [] => none
  | c :: _ =>
    if c = '-' || c = '+' || c = '*' then some ⟨c, none, 1⟩
    else
      let digits := s.takeWhile Char.isDigit
      let value := digits.foldl (fun n d => 10 * n + (d.toNat - 48)) 0
      if digits.isEmpty || 9 < digits.length then none
      else
        match s.drop digits.length with
        | d :: _ =>
          if d = '.' || d = ')' then some ⟨d, some value, digits.length + 1⟩ else none
        | [] => none

/-- The start of a list item: its marker, the indentation of its content, and the place of the
content. A blank or the line end must follow the marker. Content that is indented by more than
four columns is code and starts one column after the marker. -/
def listItem? (indent : Nat) (c : Cursor) : Option (ListMarker × Nat × Cursor) :=
  match marker? c.rest with
  | none => none
  | some m =>
    if m.number.isNone && isRule c.rest then none
    else
      let after := c.advanceBy m.width
      let (gap, content) := after.takeSpaces 1
      if gap = 0 && !after.atEnd then none
      else
        let base := indent + m.width + 1
        if content.atBlank then some (m, base, content)
        else
          let (more, deeper) := content.takeSpaces 4
          if more < 4 then some (m, base + more, deeper) else some (m, base, content)

def task? (lineEnds : Bool) (c : Cursor) : Option (Bool × Cursor) :=
  let (_, c) := c.takeSpaces 3
  match c.rest with
  | '[' :: x :: ']' :: after =>
    let followed := match after with
      | [] => lineEnds
      | y :: _ => Line.isSpace y
    if !followed then none
    else if Line.isSpace x then some (false, c.advanceBy 3)
    else if x = 'x' || x = 'X' then some (true, c.advanceBy 3)
    else none
  | _ => none

/-- A list item at the start of a line interrupts a paragraph of its own container if it has a
bullet or the number 1 and is not empty, its next line included; in another container, or in a
table, it always does. -/
def itemInterrupts (free : Bool) (s : Text) (next : Option Line) : Bool :=
  match marker? s with
  | none => false
  | some m =>
    let after := s.drop m.width
    let spaced := match after with
      | [] => true
      | c :: _ => c == ' ' || c == '\t'
    let empty := Line.isBlankText after && (next.map Line.isBlank).getD true
    spaced && (free || ((m.number.isNone || m.number = some 1) && !empty))

def interrupts (free : Bool) (s : Text) (next : Option Line) : Bool :=
  s.isEmpty || isRule s || (heading? s).isSome || (fence? s).isSome || s.head? == some '>' ||
    itemInterrupts free s next || (RawHtml.strongBlock? s).isSome

end BlockStart
end Quizdown
