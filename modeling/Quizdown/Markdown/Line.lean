import Quizdown.Text.Basic

/-!
Lines of a document and a cursor inside a line. Positions are byte positions in the UTF-8 encoding
of the document. The cursor counts columns: a tab reaches to the next multiple of four, and blank
columns may be taken from it one by one.
-/
set_option autoImplicit false

namespace Quizdown

structure Line where
  offset : Nat
  body : Text
  ending : Text
deriving DecidableEq, Repr

namespace Line

def stop (l : Line) : Nat := l.offset + Text.byteSize l.body + l.ending.length

/-- Cuts the document at line ends. The first two arguments are the byte position of the line that
is being read and its characters so far, latest first. -/
def splitFrom (offset : Nat) (body : Text) : Text → List Line
  | [] => if body.isEmpty then [] else [⟨offset, body.reverse, []⟩]
  | '\r' :: '\n' :: s =>
    let line : Line := ⟨offset, body.reverse, ['\r', '\n']⟩
    line :: splitFrom line.stop [] s
  | c :: s =>
    if c = '\n' || c = '\r' then
      let line : Line := ⟨offset, body.reverse, [c]⟩
      line :: splitFrom line.stop [] s
    else splitFrom offset (c :: body) s

def split (document : Text) : List Line := splitFrom 0 [] document

def isSpace (c : Char) : Bool := c == ' ' || c == '\t' || c == '\x0b' || c == '\x0c'

def isBlankText (s : Text) : Bool := s.all isSpace

def isBlank (l : Line) : Bool := isBlankText l.body

end Line

structure Cursor where
  rest : Text
  offset : Nat
  /-- Columns passed since the last tab stop. -/
  column : Nat := 0
  /-- Columns of a tab just passed that have not been taken yet. -/
  pending : Nat := 0
deriving DecidableEq, Repr

namespace Cursor

def ofLine (l : Line) : Cursor where
  rest := l.body
  offset := l.offset

def takeSpacesFrom (column pending offset n : Nat) : Text → Nat × Cursor
  | ' ' :: s =>
    if pending < n then
      let (taken, c) := takeSpacesFrom (column + 1) 0 (offset + 1) (n - pending - 1) s
      (pending + 1 + taken, c)
    else (n, ⟨' ' :: s, offset, column, pending - n⟩)
  | '\t' :: s =>
    if pending < n then
      let width := 4 - column % 4
      let (taken, c) := takeSpacesFrom 0 width (offset + 1) (n - pending) s
      (pending + taken, c)
    else (n, ⟨'\t' :: s, offset, column, pending - n⟩)
  | s => (min n pending, ⟨s, offset, column, pending - n⟩)

def takeSpaces (c : Cursor) (n : Nat) : Nat × Cursor :=
  takeSpacesFrom c.column c.pending c.offset n c.rest

def advance (c : Cursor) : Cursor :=
  match c.rest with
  | [] => c
  | x :: s => { c with rest := s, offset := c.offset + x.utf8Size, column := c.column + 1 }

def advanceBy (c : Cursor) : Nat → Cursor
  | 0 => c
  | n + 1 => c.advance.advanceBy n

def atEnd (c : Cursor) : Bool := c.rest.isEmpty

def atBlank (c : Cursor) : Bool := Line.isBlankText c.rest

def indentation (c : Cursor) : Text := c.rest.takeWhile fun x => x == ' ' || x == '\t'

def skipIndentation (c : Cursor) : Cursor :=
  { c with
    rest := c.rest.dropWhile fun x => x == ' ' || x == '\t'
    offset := c.offset + c.indentation.length
    column := c.column + c.indentation.length
    pending := 0 }

end Cursor
end Quizdown
