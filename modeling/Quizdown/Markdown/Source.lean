import Quizdown.Markdown.Line

/-!
The text of a block as it is handed to the reader of inline content: one glyph for each character,
and one for each line break, which stands for the line end and for the marks of the containers
around the next line.
-/
set_option autoImplicit false

namespace Quizdown

structure Glyph where
  char : Char
  offset : Nat
  written : Text
deriving DecidableEq, Repr

abbrev Source := List Glyph

namespace Source

def text (s : Source) : Text := s.map Glyph.char

def written (s : Source) : Text := s.flatMap Glyph.written

def glyphStop (g : Glyph) : Nat := g.offset + Text.byteSize g.written

def stop (s : Source) : Nat := (s.getLast?.map glyphStop).getD 0

def ofText (offset : Nat) : Text → Source
  | [] => []
  | c :: s => ⟨c, offset, [c]⟩ :: ofText (offset + c.utf8Size) s

def trimEnd (s : Source) : Source :=
  (s.reverse.dropWhile fun g => Line.isSpace g.char).reverse

def trimStart (s : Source) : Source := s.dropWhile fun g => Line.isSpace g.char

end Source

/-- A line that belongs to a block, cut where the marks of the containers end. -/
structure BodyLine where
  line : Line
  outer : Text
  indentation : Text
  text : Text
deriving DecidableEq, Repr

namespace BodyLine

def ofCursor (line : Line) (c : Cursor) : BodyLine where
  line := line
  outer := line.body.take (line.body.length - c.rest.length)
  indentation := c.indentation
  text := c.skipIndentation.rest

def textOffset (b : BodyLine) : Nat :=
  b.line.offset + Text.byteSize b.outer + b.indentation.length

def source (b : BodyLine) : Source := Source.ofText b.textOffset b.text

def continuation (before : Line) (b : BodyLine) : Source :=
  ⟨'\n', before.offset + Text.byteSize before.body, before.ending ++ b.outer⟩ ::
    Source.ofText (b.line.offset + Text.byteSize b.outer) (b.indentation ++ b.text)

def sourceFrom (before : Line) : List BodyLine → Source
  | [] => []
  | b :: rest => b.continuation before ++ sourceFrom b.line rest

def toSource : List BodyLine → Source
  | [] => []
  | b :: rest => b.source ++ sourceFrom b.line rest

end BodyLine
end Quizdown
