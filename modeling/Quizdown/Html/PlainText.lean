import Quizdown.Markdown.Event

/-!
The plain text of a sequence of events: text and code as written, a blank for every break and
after every paragraph, item and code block, nothing for raw HTML.
-/
set_option autoImplicit false

namespace Quizdown

def Event.plain (soFar : Text) : Event → Text
  | .text s | .code s => s
  | .softBreak | .hardBreak => [' ']
  | .stop .paragraph | .stop .item | .stop .codeBlock =>
    if soFar.isEmpty || Text.endsBlank soFar then [] else [' ']
  | _ => []

def rawPlainText (events : List Event) : Text :=
  events.foldl (fun soFar e => soFar ++ e.plain soFar) []

def plainText (events : List Event) : Text := Text.trim (rawPlainText events)

end Quizdown
