import Quizdown.Text.Basic
import Quizdown.Text.WordChar

/-!
Directive tokens in an HTML fragment. A token is `@key=value` at the start of the fragment or
after a blank, `>` or `-`. Its value runs up to a blank or `<`, and a `-->` inside it closes the
comment around the token and ends the value. What stands in a `code` element is never a token.
-/
set_option autoImplicit false

namespace Quizdown

structure Directive where
  key : Text
  value : Text
deriving DecidableEq, Repr

namespace Directive

def token (d : Directive) : Text := '@' :: d.key ++ '=' :: d.value

def isKeyStart (c : Char) : Bool := c.isAlpha || c == '_'

def isKeyChar (c : Char) : Bool := c.isAlphanum || c == '_'

def isValueChar (c : Char) : Bool := !Text.isBlank c && c != '<'

def isLead (c : Char) : Bool := Text.isBlank c || c == '>' || c == '-'

def commentEnd : Text := "-->".toList

def cutValue (value : Text) : Text × Text :=
  match Text.splitFirst? commentEnd value with
  | some (before, after) => (before, commentEnd ++ after)
  | none => (value, [])

/-- Reads a token at the start of the text: the directive, the part of its value that was cut off,
and the rest of the text. -/
def read? : Text → Option (Directive × Text × Text)
  | '@' :: c :: s =>
    if isKeyStart c then
      match s.dropWhile isKeyChar with
      | '=' :: after =>
        let (value, tail) := cutValue (after.takeWhile isValueChar)
        some (⟨c :: s.takeWhile isKeyChar, value⟩, tail, after.dropWhile isValueChar)
      | _ => none
    else none
  | _ => none

def codeEnd : Text := "</code>".toList

def codeElement? (s : Text) : Option (Text × Text) :=
  match Text.stripPrefix? "<code".toList s with
  | none => none
  | some after =>
    if after.head?.any Text.isWordChar then none
    else
      match Text.splitFirst? ['>'] after with
      | none => none
      | some (attributes, content) =>
        (Text.splitFirst? codeEnd content).map fun (inside, rest) =>
          ("<code".toList ++ attributes ++ '>' :: inside ++ codeEnd, rest)

inductive Part
  | char (c : Char)
  | code (raw : Text)
  | token (d : Directive) (tail : Text)
deriving DecidableEq, Repr

def Part.text : Part → Text
  | char c => [c]
  | code raw => raw
  | token d tail => d.token ++ tail

/-- The fragment as a list of parts, read from left to right. The first argument says whether a
token may stand at the start; the second bounds the number of parts. -/
def partsFrom : Bool → Nat → Text → List Part
  | _, 0, _ => []
  | _, _, [] => []
  | mayStart, fuel + 1, c :: s =>
    match codeElement? (c :: s) with
    | some (raw, rest) => .code raw :: partsFrom true fuel rest
    | none =>
      match if mayStart then read? (c :: s) else none with
      | some (d, tail, rest) => .token d tail :: partsFrom false fuel rest
      | none => .char c :: partsFrom (isLead c) fuel s

def parts (fragment : Text) : List Part := partsFrom true fragment.length fragment

end Directive
end Quizdown
