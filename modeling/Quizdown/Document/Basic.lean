import Quizdown.AnswerList
import Quizdown.Document.LineTable
import Quizdown.Markdown.Event

/-!
A quiz document as the sequence of its top-level blocks, each with its place. Blocks inside HTML
comments are hidden.
-/
set_option autoImplicit false

namespace Quizdown

inductive BlockKind
  | heading (level : Nat) (text : Text)
  | paragraph (html text : Text)
  | code (html text : Text)
  /-- Anything else that can describe a question: quotes, tables, raw HTML. -/
  | rich (html text : Text)
  | list (list : AnswerList)
  | rule
  | comment
deriving DecidableEq, Repr

structure Block where
  kind : BlockKind
  span : Span
  line : Nat
  index : Nat
deriving DecidableEq, Repr

structure Document where
  blocks : List Block
  commentSpans : List Span
deriving DecidableEq, Repr

def Span.within (inner outer : Span) : Bool :=
  decide (outer.start ≤ inner.start) && decide (inner.stop ≤ outer.stop)

namespace Document

def isCommentedOut (d : Document) (b : Block) : Bool := d.commentSpans.any fun s => b.span.within s

def isVisible (d : Document) (b : Block) : Bool := b.kind != .comment && !d.isCommentedOut b

def visibleBlocks (d : Document) : List Block := d.blocks.filter d.isVisible

end Document

def lineOf (document : Text) (offset : Nat) : Nat := (LineTable.ofText document).lineOf offset

def Text.dropBytes (n : Nat) : Nat → Text → Text
  | _, [] => []
  | start, c :: s => if start < n then dropBytes n (start + c.utf8Size) s else c :: s

def Text.takeBytes (n : Nat) : Nat → Text → Text
  | _, [] => []
  | start, c :: s => if start < n then c :: takeBytes n (start + c.utf8Size) s else []

def Span.slice (document : Text) (span : Span) : Text :=
  Text.takeBytes span.stop span.start (Text.dropBytes span.start 0 document)

def Span.trim (document : Text) (span : Span) : Span :=
  let slice := span.slice document
  if Text.isAllBlank slice then span
  else
    ⟨span.start + Text.byteSize (slice.takeWhile Text.isBlank),
     span.stop - Text.byteSize (slice.reverse.takeWhile Text.isBlank)⟩

end Quizdown
