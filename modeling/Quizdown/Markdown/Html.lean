import Quizdown.Markdown.Line

/-!
Raw HTML in Markdown: tags, comments, processing instructions, declarations and character data,
each recognised at the start of a text. A recogniser answers how many characters it covers.
-/
set_option autoImplicit false

namespace Quizdown
namespace RawHtml

def blanks (lines : Bool) (s : Text) : Nat :=
  (s.takeWhile fun c => Line.isSpace c || (lines && c == '\n')).length

def isNameChar (c : Char) : Bool := c.isAlphanum || c == '-'

def isAttributeStart (c : Char) : Bool := c.isAlpha || c == '_' || c == ':'

def isAttributeChar (c : Char) : Bool :=
  c.isAlphanum || c == '_' || c == '.' || c == ':' || c == '-'

def isBareValueChar (c : Char) : Bool :=
  !(c == '\'' || c == '"' || c == ' ' || c == '=' || c == '>' || c == '<' || c == '`' || c == '\n')

def value? (lines : Bool) : Text → Option Nat
  | [] => none
  | c :: s =>
    if c = '"' || c = '\'' then
      let inside := s.takeWhile (· ≠ c)
      if inside.length = s.length || (!lines && inside.contains '\n') then none
      else some (inside.length + 2)
    else
      match ((c :: s).takeWhile isBareValueChar).length with
      | 0 => none
      | n => some n

def attribute? (lines : Bool) (s : Text) : Option Nat :=
  if s.head?.any isAttributeStart then
    let name := (s.takeWhile isAttributeChar).length
    let after := s.drop name
    let gap := blanks lines after
    match after.drop gap with
    | '=' :: r =>
      let gap' := blanks lines r
      (value? lines (r.drop gap')).map fun n => name + gap + 1 + gap' + n
    | _ => some name
  else none

def attributes? (lines : Bool) : Nat → Text → Option Nat
  | 0, _ => none
  | fuel + 1, s =>
    let gap := blanks lines s
    match s.drop gap with
    | '>' :: _ => some (gap + 1)
    | '/' :: '>' :: _ => some (gap + 2)
    | after =>
      if gap = 0 then none
      else
        (attribute? lines after).bind fun n =>
          (attributes? lines fuel (after.drop n)).map fun m => gap + n + m

def tag? (lines : Bool) : Text → Option Nat
  | '<' :: '/' :: s =>
    if s.head?.any Char.isAlpha then
      let name := (s.takeWhile isNameChar).length
      let gap := blanks false (s.drop name)
      if (s.drop (name + gap)).head? = some '>' then some (name + gap + 3) else none
    else none
  | '<' :: s =>
    if s.head?.any Char.isAlpha then
      let name := (s.takeWhile isNameChar).length
      (attributes? lines (s.length + 1) (s.drop name)).map fun n => name + n + 1
    else none
  | _ => none

def through? (mark s : Text) : Option Nat :=
  (Text.splitFirst? mark s).map fun (before, _) => before.length + mark.length

/-- A comment, processing instruction, declaration or piece of character data at `<`. A comment
may end right after its opening, and character data ends at its first closing bracket. -/
def other? : Text → Option Nat
  | '<' :: '!' :: '-' :: '-' :: s => (through? "-->".toList ('-' :: '-' :: s)).map (· + 2)
  | '<' :: '?' :: s => (through? "?>".toList s).map (· + 2)
  | '<' :: '!' :: '[' :: 'C' :: 'D' :: 'A' :: 'T' :: 'A' :: '[' :: s =>
    let before := (s.takeWhile (· ≠ ']')).length
    let brackets := ((s.drop before).takeWhile (· == ']')).length
    if brackets ≠ 0 && (s.drop (before + brackets)).head? == some '>' then
      some (9 + before + brackets + 1)
    else none
  | '<' :: '!' :: c :: s => if c.isAlpha then (through? ['>'] s).map (· + 3) else none
  | _ => none

def inline? (s : Text) : Option Nat := (other? s).orElse fun _ => tag? true s

inductive BlockEnd
  | mark (text : Text)
  | blankLine
deriving DecidableEq, Repr

def rawElements : List (Text × Text) :=
  [("pre".toList, "</pre>".toList), ("style".toList, "</style>".toList),
   ("script".toList, "</script>".toList), ("textarea".toList, "</textarea>".toList)]

def blockElements : Texts :=
  ["address", "article", "aside", "base", "basefont", "blockquote", "body", "caption", "center",
   "col", "colgroup", "dd", "details", "dialog", "dir", "div", "dl", "dt", "fieldset",
   "figcaption", "figure", "footer", "form", "frame", "frameset", "h1", "h2", "h3", "h4", "h5",
   "h6", "head", "header", "hr", "html", "iframe", "legend", "li", "link", "main", "menu",
   "menuitem", "nav", "noframes", "ol", "optgroup", "option", "p", "param", "search", "section",
   "summary", "table", "tbody", "td", "tfoot", "th", "thead", "title", "tr", "track",
   "ul"].map String.toList

def endsRawName (s : Text) : Bool :=
  match s with
  | [] => true
  | c :: _ => Line.isSpace c || c == '>'

def markedBlock? : Text → Option Text
  | '<' :: s =>
    match rawElements.find? fun (name, _) =>
        Text.asciiLower (s.take name.length) = name && endsRawName (s.drop name.length) with
    | some (_, mark) => some mark
    | none =>
      if Text.startsWith s "!--".toList then some "-->".toList
      else if Text.startsWith s ['?'] then some "?>".toList
      else if Text.startsWith s "![CDATA[".toList then some "]]>".toList
      else
        match s with
        | '!' :: c :: _ => if c.isAlpha then some ['>'] else none
        | _ => none
  | _ => none

def opensBlockElement : Text → Bool
  | '<' :: s =>
    let s := match s with
      | '/' :: r => r
      | _ => s
    let name := s.takeWhile Char.isAlphanum
    blockElements.contains (Text.asciiLower name) &&
      match s.drop name.length with
      | [] => true
      | '/' :: '>' :: _ => true
      | c :: _ => c == ' ' || c == '\t' || c == '>'
  | _ => false

def strongBlock? (s : Text) : Option BlockEnd :=
  match markedBlock? s with
  | some mark => some (.mark mark)
  | none => if opensBlockElement s then some .blankLine else none

/-- The start of an HTML block; a single tag alone on its line is one too. -/
def block? (s : Text) : Option BlockEnd :=
  match strongBlock? s with
  | some e => some e
  | none =>
    match tag? false s with
    | some n => if Line.isBlankText (s.drop n) then some .blankLine else none
    | none => none

end RawHtml
end Quizdown
