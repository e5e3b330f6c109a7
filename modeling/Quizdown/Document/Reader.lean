import Quizdown.Document.Build
import Quizdown.Markdown.Reader

/-!
A document from the events of its Markdown text. The reader holds the events of one top-level
block until its end event comes.
-/
set_option autoImplicit false

namespace Quizdown

structure BlockReader where
  depth : Nat := 0
  opened : Option (Tag × Span) := none
  /-- The events inside it, latest first. -/
  inner : List Event := []
  comments : List Span := []
deriving DecidableEq, Repr

namespace BlockReader

def push (r : BlockReader) (e : PlacedEvent) : BlockReader × Option (BlockKind × Span) :=
  match e.event with
  | .start tag =>
    if r.depth = 0 then
      ({ r with depth := 1, opened := some (tag, e.span), inner := [] }, none)
    else ({ r with depth := r.depth + 1, inner := e.event :: r.inner }, none)
  | .stop _ =>
    if 1 < r.depth then ({ r with depth := r.depth - 1, inner := e.event :: r.inner }, none)
    else
      match r.opened with
      | none => ({ r with depth := 0 }, none)
      | some (tag, span) =>
        ({ r with depth := 0, opened := none, inner := [] },
          some (.ofEvents tag r.inner.reverse, span))
  | .rule =>
    if r.depth = 0 then (r, some (.rule, e.span))
    else ({ r with inner := e.event :: r.inner }, none)
  | .inlineHtml s =>
    let comments := if Text.startsWith s "<!--".toList then e.span :: r.comments else r.comments
    ({ r with inner := e.event :: r.inner, comments := comments }, none)
  | _ => ({ r with inner := e.event :: r.inner }, none)

def run (r : BlockReader) : List PlacedEvent → List (BlockKind × Span) × List Span
  | [] => ([], r.comments.reverse)
  | e :: rest =>
    match r.push e with
    | (r, none) => r.run rest
    | (r, some (kind, span)) =>
      let r := if kind = .comment then { r with comments := span :: r.comments } else r
      let (blocks, comments) := r.run rest
      ((kind, span) :: blocks, comments)

end BlockReader

namespace Document

def number (source : Text) (i : Nat) : List (BlockKind × Span) → List Block
  | [] => []
  | (kind, span) :: rest =>
    ⟨kind, span.trim source, lineOf source span.start, i + 1⟩ :: number source (i + 1) rest

def ofEvents (source : Text) (events : List PlacedEvent) : Document :=
  let (blocks, comments) := BlockReader.run {} events
  { blocks := number source 0 blocks
    commentSpans :=
      (comments.mergeSort fun a b => decide (a.start ≤ b.start)).map (Span.trim source) }

def read (source : Text) : Document := ofEvents source (Markdown.read source)

end Document
end Quizdown
