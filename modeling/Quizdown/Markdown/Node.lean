import Quizdown.Markdown.Inline

/-!
A Markdown document as a tree of blocks, and the events of such a tree. Starts and ends of the
events match by construction. A start event and a thematic break carry the place of their block,
raw inline HTML its own place, and every other event the place of the block around it.
-/
set_option autoImplicit false

namespace Quizdown
namespace Markdown

/-- A block. The inline content is kept as source until all definitions are known. -/
inductive Node
  | paragraph (span : Span) (task : Option Bool) (source : Source)
  | heading (span : Span) (level : Nat) (task : Option Bool) (source : Source)
  | code (span : Span) (info : Option Text) (content : Text)
  | html (span : Span) (lines : List (Nat × Text))
  | rule (span : Span)
  | table (span : Span) (columns : List Alignment) (head : List Source) (rows : List (List Source))
  | quote (span : Span) (children : List Node)
  | list (span : Span) (number : Option Nat) (tight : Bool) (items : List (List Node))
  | taskMarker (span : Span) (checked : Bool)

mutual

def inlineEvents (span : Span) : Inline → List PlacedEvent
  | .text s => [⟨.text s, span⟩]
  | .code s => [⟨.code s, span⟩]
  | .html s place => [⟨.inlineHtml s, place⟩]
  | .softBreak => [⟨.softBreak, span⟩]
  | .hardBreak => [⟨.hardBreak, span⟩]
  | .emphasis inner =>
    ⟨.start .emphasis, span⟩ :: inlinesEvents span inner ++ [⟨.stop .emphasis, span⟩]
  | .strong inner => ⟨.start .strong, span⟩ :: inlinesEvents span inner ++ [⟨.stop .strong, span⟩]
  | .strikethrough inner =>
    ⟨.start .strikethrough, span⟩ :: inlinesEvents span inner ++ [⟨.stop .strikethrough, span⟩]
  | .link url title inner =>
    ⟨.start (.link url title), span⟩ :: inlinesEvents span inner ++ [⟨.stop .link, span⟩]
  | .image url title inner =>
    ⟨.start (.image url title), span⟩ :: inlinesEvents span inner ++ [⟨.stop .image, span⟩]

def inlinesEvents (span : Span) : List Inline → List PlacedEvent
  | [] => []
  | i :: rest => inlineEvents span i ++ inlinesEvents span rest

end

def enclose (tag : Tag) (span : Span) (inner : List PlacedEvent) : List PlacedEvent :=
  ⟨.start tag, span⟩ :: inner ++ [⟨.stop tag.closing, span⟩]

def taskEvents (span : Span) : Option Bool → List PlacedEvent
  | some checked => [⟨.taskMarker checked, span⟩]
  | none => []

def sourceEvents (refs : References) (inTable : Bool) (span : Span) (s : Source) :
    List PlacedEvent :=
  inlinesEvents span (Inline.read refs inTable s)

def htmlEvents (span : Span) (line : Nat × Text) : List PlacedEvent :=
  (if line.1 = 0 then [] else [⟨.text (List.replicate line.1 ' '), span⟩]) ++ [⟨.html line.2, span⟩]

def cellEvents (refs : References) (span : Span) (cells : List Source) : List PlacedEvent :=
  cells.flatMap fun s => enclose .tableCell span (sourceEvents refs true span s)

mutual

/-- The events of a block. The flag says that the block stands in an item of a tight list. -/
def Node.events (refs : References) (tight : Bool) : Node → List PlacedEvent
  | .paragraph span task source =>
    let inner := taskEvents span task ++ sourceEvents refs false span source
    if tight then inner else enclose .paragraph span inner
  | .heading span level task source =>
    enclose (.heading level) span (taskEvents span task ++ sourceEvents refs false span source)
  | .code span info content => enclose (.codeBlock info) span [⟨.text content, span⟩]
  | .html span lines => enclose .htmlBlock span (lines.flatMap (htmlEvents span))
  | .rule span => [⟨.rule, span⟩]
  | .table span columns head rows =>
    enclose (.table columns) span
      (enclose .tableHead span (cellEvents refs span head) ++
        rows.flatMap fun row => enclose .tableRow span (cellEvents refs span row))
  | .quote span children => enclose .blockQuote span (Node.allEvents refs false children)
  | .list span number tight items =>
    enclose (.list number) span (Node.itemEvents refs tight span items)
  | .taskMarker span checked => [⟨.taskMarker checked, span⟩]

def Node.allEvents (refs : References) (tight : Bool) : List Node → List PlacedEvent
  | [] => []
  | n :: rest => n.events refs tight ++ Node.allEvents refs tight rest

def Node.itemEvents (refs : References) (tight : Bool) (span : Span) :
    List (List Node) → List PlacedEvent
  | [] => []
  | item :: rest =>
    enclose .item span (Node.allEvents refs tight item) ++ Node.itemEvents refs tight span rest

end

end Markdown
end Quizdown
