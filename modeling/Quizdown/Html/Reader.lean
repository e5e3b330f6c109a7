import Quizdown.Xml.Reader

/-!
Reading a fragment of HTML as a row of characters and tags. A `<` always opens a tag and the next
`>` closes it; `&` always opens a reference to a character. In running text the three stand for
nothing else, and neither of the first two stands inside a tag, also not in a quoted value. So what
is read here is read alike by every reader of HTML. Comments and declarations are refused.
-/
set_option autoImplicit false

namespace Quizdown
namespace Html

abbrev Attribute := Text × Option Text

inductive Tag
  | start (name : Text) (attributes : List Attribute)
  | empty (name : Text) (attributes : List Attribute)
  | stop (name : Text)
deriving DecidableEq, Repr

def isNameChar (c : Char) : Bool := c.isAlphanum || c == '-'

def isName : Text → Bool
  | [] => false
  | c :: s => c.isAlpha && s.all isNameChar

/-- The first word of a tag, and the others. Words stand between blanks; a value in quotes is not
divided. The flag says that the text starts inside quotes. -/
def tagWords : Bool → Text → Text × Texts
  | _, [] => ([], [])
  | quoted, c :: s =>
    let (word, words) := tagWords (quoted != (c == '"')) s
    if c = ' ' && !quoted then ([], word :: words) else (c :: word, words)

def attribute? (word : Text) : Option Attribute :=
  let name := word.takeWhile (· != '=')
  if !isName name then none
  else
    match word.dropWhile (· != '=') with
    | [] => some (name, none)
    | _ :: quoted =>
      match Xml.readValue? quoted with
      | some (value, []) => some (name, some value)
      | _ => none

def attributes? : Texts → Option (List Attribute)
  | [] => some []
  | word :: words =>
    match attribute? word, attributes? words with
    | some a, some more => some (a :: more)
    | _, _ => none

def Tag.ofText? (s : Text) : Option Tag :=
  match s with
  | '/' :: name => if isName name then some (.stop name) else none
  | _ =>
    let (name, words) := tagWords false s
    if !isName name then none
    else if words.getLast? = some ['/'] then (attributes? words.dropLast).map (Tag.empty name)
    else (attributes? words).map (Tag.start name)

inductive Piece
  | char (c : Char)
  | tag (t : Tag)
deriving DecidableEq, Repr

/-- Where a reader is: in running text, or in a reference or a tag of which it has read a part,
latest character first. -/
inductive Position
  | text
  | reference (name : Text)
  | tag (content : Text)
deriving DecidableEq, Repr

def Position.step : Position → Char → Option (Position × List Piece)
  | text, c =>
    if c = '<' then some (tag [], [])
    else if c = '&' then some (reference [], [])
    else if c = '>' then none
    else some (text, [.char c])
  | reference name, c =>
    if c = ';' then (Xml.reference? name.reverse).map fun d => (text, [.char d])
    else if c.isAlphanum || c = '#' then some (reference (c :: name), [])
    else none
  | tag content, c =>
    if c = '>' then (Tag.ofText? content.reverse).map fun t => (text, [.tag t])
    else if c = '<' then none
    else some (tag (c :: content), [])

def read : Position → Text → Option (Position × List Piece)
  | p, [] => some (p, [])
  | p, c :: s =>
    match p.step c with
    | none => none
    | some (next, pieces) => (read next s).map fun (last, more) => (last, pieces ++ more)

def pieces? (s : Text) : Option (List Piece) :=
  match read .text s with
  | some (.text, pieces) => some pieces
  | _ => none

def Piece.tag? : Piece → Option Tag
  | char _ => none
  | tag t => some t

def Piece.char? : Piece → Option Char
  | char c => some c
  | tag _ => none

def tags (pieces : List Piece) : List Tag := pieces.filterMap Piece.tag?

def shown (pieces : List Piece) : Text := pieces.filterMap Piece.char?

def voidNames : Texts :=
  ["area".toList, "base".toList, "br".toList, "col".toList, "embed".toList, "hr".toList,
    "img".toList, "input".toList, "link".toList, "meta".toList, "source".toList, "track".toList,
    "wbr".toList]

def isVoid (name : Text) : Bool := voidNames.contains name

/-- The open elements behind a tag, the innermost first. A start tag opens an element that has an
end tag, only an element that has none is written as one tag, and an end tag closes the innermost
open element. -/
def Tag.nest (opened : Texts) : Tag → Option Texts
  | start name _ => if isVoid name then none else some (name :: opened)
  | empty name _ => if isVoid name then some opened else none
  | stop name =>
    match opened with
    | innermost :: outer => if innermost = name then some outer else none
    | [] => none

def nest : Texts → List Tag → Option Texts
  | opened, [] => some opened
  | opened, t :: ts =>
    match t.nest opened with
    | some opened => nest opened ts
    | none => none

-- a value may hold blanks, and a slash behind a blank ends an element
example : (pieces? "a <img alt=\"1 &lt; 2\" />&amp;".toList) =
    some [.char 'a', .char ' ',
      .tag (.empty "img".toList [("alt".toList, some "1 < 2".toList)]), .char '&'] := by
  decide

end Html
end Quizdown
