import Quizdown.Markdown.Emphasis
import Quizdown.Markdown.Html
import Quizdown.Markdown.Link
import Quizdown.Markdown.Source
import Quizdown.Text.CaseFold

/-!
Inline content of a block: text, code, raw HTML, links, images and breaks. The source is read once
from left to right; brackets wait on a stack until a closing bracket makes them a link or text,
and emphasis is paired when the text of a link, or the whole block, is complete.
-/
set_option autoImplicit false

namespace Quizdown

abbrev References := List (Text × LinkTarget)

def References.find? (refs : References) (label : Text) : Option LinkTarget :=
  (List.find? (fun r => Text.caseFold r.1 = Text.caseFold label) refs).map Prod.snd

namespace Inline

structure Bracket where
  image : Bool
  live : Bool
  inside : Source
  before : List Piece

def textPiece (s : Text) : Piece := .inline (.text s)

def Bracket.spelling (b : Bracket) : Text := if b.image then ['!', '['] else ['[']

def Bracket.asText (b : Bracket) (pieces : List Piece) : List Piece :=
  pieces ++ textPiece b.spelling :: b.before

def closeAll (pieces : List Piece) (brackets : List Bracket) : List Piece :=
  brackets.foldl (fun pieces b => b.asText pieces) pieces

/-- Splits a source before the next run of exactly `n` backquotes, and drops the run. The number
in front bounds the runs. -/
def backquotes? (n : Nat) : Nat → Source → Option (Source × Source)
  | 0, _ => none
  | fuel + 1, s =>
    let before := s.takeWhile fun g => g.char != '`'
    let after := s.drop before.length
    let run := after.takeWhile fun g => g.char == '`'
    if run.isEmpty then none
    else if run.length = n then some (before, after.drop n)
    else
      (backquotes? n fuel (after.drop run.length)).map fun (more, rest) =>
        (before ++ run ++ more, rest)

/-- In a table cell a backslash before a bar is no part of code. -/
def dropBarEscapes : Text → Text
  | '\\' :: '|' :: s => '|' :: dropBarEscapes s
  | c :: s => c :: dropBarEscapes s
  | [] => []

/-- The text of inline code: line breaks become spaces, and one space is dropped at each side if
both are there and not all is spaces. -/
def codeText (inTable : Bool) (s : Source) : Text :=
  let t := s.text.map fun c => if c = '\n' then ' ' else c
  let t := if inTable then dropBarEscapes t else t
  if t.all (· == ' ') || t.head? != some ' ' || t.getLast? != some ' ' then t
  else (t.drop 1).dropLast

def spaces (s : Source) : Source := s.takeWhile fun g => Line.isSpace g.char

def dropIndentation (s : Source) : Source :=
  s.dropWhile fun g => g.char == ' ' || g.char == '\t'

/-- The number of glyphs that a raw HTML element covers, and its text: of a tag the characters,
of anything else all that is written. -/
def rawHtml? (s : Source) : Option (Inline × Nat) :=
  let place (n : Nat) : Span := ⟨(s.head?.map Glyph.offset).getD 0, Source.stop (s.take n)⟩
  match RawHtml.other? s.text with
  | some n => some (.html (Source.written (s.take n)) (place n), n)
  | none =>
    (RawHtml.tag? true s.text).map fun n => (.html (Source.text (s.take n)) (place n), n)

/-- What follows the closing bracket of a link: its target, and the number of glyphs it covers.
A target in parentheses comes first, then a label of a definition; without either, the text
between the brackets is the label. -/
def linkTarget? (refs : References) (b : Bracket) (after : Source) : Option (LinkTarget × Nat) :=
  match Link.inline? after.text with
  | some found => some found
  | none =>
    -- the text from the opening bracket to the closing one, if it is a label
    let own : Option Text :=
      (Link.label? ('[' :: b.inside.text)).bind fun (label, n) =>
        if b.inside.length + 1 - n = after.length then some label else none
    if Text.startsWith after.text ['[', ']'] then
      (own.bind refs.find?).map fun t => (t, 2)
    else
      match Link.label? after.text with
      | some (label, n) => (refs.find? label).map fun t => (t, n)
      | none => (own.bind refs.find?).map fun t => (t, 0)

/-- Reads a source to its end. The arguments are the definitions, whether the source is a table
cell, a bound of the steps, the character before the source if it is on the same line, the open
brackets, innermost first, and the pieces since the innermost, latest first. -/
def pieces (refs : References) (inTable : Bool) :
    Nat → Option Char → List Bracket → List Piece → Source → List Piece
  | 0, _, brackets, out, _ => closeAll out brackets
  | _, _, brackets, out, [] => closeAll out brackets
  | fuel + 1, before, brackets, out, g :: s =>
    let go (n : Nat) (added : List Piece) : List Piece :=
      pieces refs inTable fuel ((g :: s)[n - 1]?.map Glyph.char) brackets (added ++ out)
        ((g :: s).drop n)
    let literal (n : Nat) : List Piece := go n [textPiece (Source.text ((g :: s).take n))]
    let nextLine (i : Inline) (rest : Source) : List Piece :=
      pieces refs inTable fuel none brackets (.inline i :: out) (dropIndentation rest)
    let c := g.char
    if c = '\n' then nextLine .softBreak s
    else if Line.isSpace c then
      let gap := spaces (g :: s)
      match (g :: s).drop gap.length with
      | [] => closeAll out brackets
      | h :: rest =>
        if h.char = '\n' then nextLine (if 2 ≤ gap.length then .hardBreak else .softBreak) rest
        else literal gap.length
    else if c = '\\' then
      match s.head?.map Glyph.char with
      | some '\n' => nextLine .hardBreak s.tail
      | some '`' =>
        -- the first backquote is escaped; the others may open code
        let n := (s.takeWhile fun h => h.char == '`').length
        let quotes := textPiece (List.replicate n '`')
        if n = 1 then go 2 [quotes]
        else
          match backquotes? (n - 1) (s.length + 1) (s.drop n) with
          | some (inside, rest) =>
            go (s.length + 1 - rest.length)
              [.inline (.code (codeText inTable inside)), textPiece ['`']]
          | none => go (n + 1) [quotes]
      | some d =>
        if inTable && d = '\\' && (s.tail.head?.map Glyph.char) = some '|' then
          go 3 [textPiece ['|']]
        else if isAsciiPunctuation d then go 2 [textPiece [d]]
        else literal 1
      | none => literal 1
    else if c = '`' then
      let n := ((g :: s).takeWhile fun h => h.char == '`').length
      match backquotes? n (s.length + 1) ((g :: s).drop n) with
      | some (inside, rest) =>
        go (s.length + 1 - rest.length) [.inline (.code (codeText inTable inside))]
      | none => literal n
    else if c = '&' then
      match Entity.read? (Source.text (g :: s)) with
      | some (t, n) => go n [textPiece t]
      | none => literal 1
    else if c = '<' then
      match Link.auto? (Source.text (g :: s)) with
      | some (url, n) => go n [.inline (.link url [] [.text url])]
      | none =>
        match rawHtml? (g :: s) with
        | some (i, n) => go n [.inline i]
        | none => literal 1
    else if c = '[' then
      pieces refs inTable fuel (some '[') (⟨false, true, s, out⟩ :: brackets) [] s
    else if c = '!' && (s.head?.map Glyph.char) = some '[' then
      pieces refs inTable fuel (some '[') (⟨true, true, s.tail, out⟩ :: brackets) [] s.tail
    else if c = ']' then
      match brackets with
      | [] => literal 1
      | b :: outer =>
        let asText (_ : Unit) : List Piece :=
          pieces refs inTable fuel (some ']') outer (textPiece [']'] :: b.asText out) s
        if b.live then
          match linkTarget? refs b s with
          | none => asText ()
          | some (target, n) =>
            let inner := Emphasis.resolve out.reverse
            let link : Inline :=
              if b.image then .image target.url target.title inner
              else .link target.url target.title inner
            -- links do not contain other links
            let outer := outer.map fun o =>
              if b.image || o.image then o else { o with live := false }
            pieces refs inTable fuel ((g :: s)[n]?.map Glyph.char) outer
              (.inline link :: b.before) (s.drop n)
        else asText ()
    else if c = '*' || c = '_' || c = '~' then
      let n := ((g :: s).takeWhile fun h => h.char == c).length
      let after := ((g :: s)[n]?).map Glyph.char
      let opens := Emphasis.canOpen c n before after
      let closes := Emphasis.canClose c n before after
      if (opens || closes) && (c ≠ '~' || n ≤ 2) then go n [.run c n opens closes]
      else literal n
    else literal 1

def read (refs : References) (inTable : Bool) (s : Source) : List Inline :=
  Emphasis.resolve (pieces refs inTable (s.length + 1) none [] [] s).reverse

end Inline
end Quizdown
