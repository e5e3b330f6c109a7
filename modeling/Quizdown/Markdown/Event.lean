import Quizdown.Text.Basic

/-!
The events a Markdown document is read as. A block or a span of text opens with a start event and
closes with an end event; text, breaks and the like stand alone.
-/
set_option autoImplicit false

namespace Quizdown

inductive Alignment
  | unset
  | left
  | center
  | right
deriving DecidableEq, Repr

inductive Tag
  | paragraph
  | heading (level : Nat)
  | blockQuote
  /-- A code block; one in fences has an info string. -/
  | codeBlock (info : Option Text)
  | htmlBlock
  | list (start : Option Nat)
  | item
  | table (columns : List Alignment)
  | tableHead
  | tableRow
  | tableCell
  | emphasis
  | strong
  | strikethrough
  | superscript
  | subscript
  | link (url title : Text)
  | image (url title : Text)
  | definitionList
  | definitionTitle
  | definition
  | footnoteDefinition
  | metadata
deriving DecidableEq, Repr

inductive TagEnd
  | paragraph
  | heading (level : Nat)
  | blockQuote
  | codeBlock
  | htmlBlock
  | list (ordered : Bool)
  | item
  | table
  | tableHead
  | tableRow
  | tableCell
  | emphasis
  | strong
  | strikethrough
  | superscript
  | subscript
  | link
  | image
  | definitionList
  | definitionTitle
  | definition
  | footnoteDefinition
  | metadata
deriving DecidableEq, Repr

def Tag.closing : Tag → TagEnd
  | paragraph => .paragraph
  | heading level => .heading level
  | blockQuote => .blockQuote
  | codeBlock _ => .codeBlock
  | htmlBlock => .htmlBlock
  | list start => .list start.isSome
  | item => .item
  | table _ => .table
  | tableHead => .tableHead
  | tableRow => .tableRow
  | tableCell => .tableCell
  | emphasis => .emphasis
  | strong => .strong
  | strikethrough => .strikethrough
  | superscript => .superscript
  | subscript => .subscript
  | link _ _ => .link
  | image _ _ => .image
  | definitionList => .definitionList
  | definitionTitle => .definitionTitle
  | definition => .definition
  | footnoteDefinition => .footnoteDefinition
  | metadata => .metadata

inductive Event
  | start (tag : Tag)
  | stop (tag : TagEnd)
  | text (s : Text)
  | code (s : Text)
  | html (s : Text)
  | inlineHtml (s : Text)
  | footnoteReference (s : Text)
  | inlineMath (s : Text)
  | displayMath (s : Text)
  | softBreak
  | hardBreak
  | rule
  | taskMarker (checked : Bool)
deriving DecidableEq, Repr

/-- A half-open range of byte positions in the UTF-8 encoding of a document. -/
structure Span where
  start : Nat
  stop : Nat
deriving DecidableEq, Repr

structure PlacedEvent where
  event : Event
  span : Span
deriving DecidableEq, Repr

end Quizdown
