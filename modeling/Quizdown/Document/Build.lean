import Quizdown.Document.Basic
import Quizdown.Html.PlainText
import Quizdown.Html.Writer

/-!
Blocks and list items from the events inside them.
-/
set_option autoImplicit false

namespace Quizdown

/-- The text outside comments; a comment without an end goes on to the end of the text. The number
bounds the steps. -/
def outsideCommentsFrom : Nat → Text → Text
  | 0, s => s
  | _, [] => []
  | fuel + 1, c :: s =>
    match Text.stripPrefix? "<!--".toList (c :: s) with
    | none => c :: outsideCommentsFrom fuel s
    | some inside =>
      match Text.splitFirst? "-->".toList inside with
      | some (_, rest) => outsideCommentsFrom fuel rest
      | none => []

def outsideComments (s : Text) : Text := outsideCommentsFrom s.length s

namespace Item

def checkedOf (events : List Event) : Option Bool :=
  (events.takeWhile fun e => match e with
    | .start (.list _) => false
    | _ => true).findSome? fun e => match e with
      | .taskMarker checked => some checked
      | _ => none

def ofEvents (events : List Event) : Item where
  html := Text.trim (HtmlWriter.item.render events)
  text := plainText events
  checked := checkedOf events

/-- The contents of the items of a list. The number is the nesting of the place in the list, the
list after it what the current item has so far, latest first. -/
def contents : Nat → List Event → List Event → List (List Event)
  | _, _, [] => []
  | 0, _, .start .item :: rest => contents 1 [] rest
  | 1, soFar, .stop .item :: rest => soFar.reverse :: contents 0 [] rest
  | depth, soFar, e :: rest =>
    match e with
    | .start _ => contents (depth + 1) (e :: soFar) rest
    | .stop _ => contents (depth - 1) (e :: soFar) rest
    | _ => contents depth (e :: soFar) rest

end Item

def AnswerList.ofEvents (ordered : Bool) (inner : List Event) : AnswerList where
  ordered := ordered
  items := (Item.contents 0 [] inner).map Item.ofEvents

namespace BlockKind

def rawHtml (inner : List Event) : Text :=
  inner.flatMap fun e => match e with
    | .html s | .text s => s
    | _ => []

def rawText (inner : List Event) : Text :=
  inner.flatMap fun e => match e with
    | .text s => s
    | _ => []

def wrap (tag : Tag) (inner : List Event) : Text :=
  HtmlWriter.block.render (.start tag :: inner ++ [.stop tag.closing])

def ofEvents (tag : Tag) (inner : List Event) : BlockKind :=
  match tag with
  | .heading level => heading level (plainText inner)
  | .paragraph => paragraph (wrap tag inner) (plainText inner)
  | .codeBlock _ => code (wrap tag inner) (rawText inner)
  | .list start => list (.ofEvents start.isSome inner)
  | .htmlBlock =>
    let raw := rawHtml inner
    if Text.isAllBlank (outsideComments raw) then comment else rich (Text.trim raw) []
  | _ => rich (wrap tag inner) (plainText inner)

end BlockKind
end Quizdown
