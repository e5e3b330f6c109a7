import Quizdown.Markdown.Event
import Quizdown.Text.Punctuation

/-!
Inline content and the pairing of emphasis marks. A run of `*`, `_` or `~` opens or closes emphasis
depending on the characters at its sides. Runs pair from the inside out; what stays unpaired is
text. Two marks on each side are strong emphasis, one is emphasis, tildes strike text out.
-/
set_option autoImplicit false

namespace Quizdown

inductive Inline
  | text (s : Text)
  | code (s : Text)
  | html (s : Text) (span : Span)
  | softBreak
  | hardBreak
  | emphasis (inner : List Inline)
  | strong (inner : List Inline)
  | strikethrough (inner : List Inline)
  | link (url title : Text) (inner : List Inline)
  | image (url title : Text) (inner : List Inline)
deriving Repr

inductive Piece
  | inline (i : Inline)
  | run (mark : Char) (length : Nat) (opens closes : Bool)
deriving Repr

namespace Emphasis

/-- A run may open emphasis: text follows, and what stands before permits it. The characters at
its sides are missing at the start of a line and at the end of the text. -/
def canOpen (mark : Char) (length : Nat) (before after : Option Char) : Bool :=
  match after with
  | none => false
  | some a =>
    if Text.isBlank a then false
    else
      match before with
      | none => true
      | some b =>
        (mark == '*' && !Text.isPunctuation a) || (mark == '~' && length > 1) ||
          (mark == '~' && b == '~' && !Text.isPunctuation a) ||
          Text.isBlank b || Text.isPunctuation b

def canClose (mark : Char) (length : Nat) (before after : Option Char) : Bool :=
  match before with
  | none => false
  | some b =>
    if Text.isBlank b then false
    else
      match after with
      | none => true
      | some a =>
        ((mark == '*' || (mark == '~' && length > 1)) && !Text.isPunctuation b) ||
          (mark == '~' && b == '~') || Text.isBlank a || Text.isPunctuation a

structure Opener where
  mark : Char
  length : Nat
  left : Nat
  both : Bool
  closed : Bool
  content : List Inline

def Opener.asText (o : Opener) : Inline := .text (List.replicate o.left o.mark)

/-- The run can close the opener. Runs that could go both ways do not pair if their lengths sum to
a multiple of three, unless both are multiples; tildes pair only in equal number. -/
def Opener.pairs (o : Opener) (mark : Char) (length : Nat) (both : Bool) : Bool :=
  o.mark == mark && !o.closed && (mark != '~' || length == o.length) &&
    ((!both && !o.both) || (length + o.length) % 3 != 0 || length % 3 == 0)

def wrap (mark : Char) : Nat → List Inline → List Inline
  | 0, inner => inner
  | 1, inner => [if mark = '~' then .strikethrough inner else .emphasis inner]
  | n + 2, inner => wrap mark n [if mark = '~' then .strikethrough inner else .strong inner]

/-- Open runs, innermost first, with the content before them, latest first. -/
structure State where
  openers : List Opener := []
  base : List Inline := []

namespace State

def add (s : State) (content : List Inline) : State :=
  match s.openers with
  | [] => { s with base := content ++ s.base }
  | o :: rest => { s with openers := { o with content := content ++ o.content } :: rest }

def flatten : List Opener → List Inline
  | [] => []
  | o :: rest => o.content ++ o.asText :: flatten rest

/-- Pairs as many of the `left` marks of a closing run as possible; answers how many are left. The
first number bounds the pairs. -/
def close (mark : Char) (length : Nat) (both : Bool) : Nat → Nat → State → Nat × State
  | 0, left, s => (left, s)
  | _, 0, s => (0, s)
  | fuel + 1, left, s =>
    let unpaired := s.openers.takeWhile fun o => !o.pairs mark length both
    match s.openers.drop unpaired.length with
    | [] =>
      -- a run of tildes without a partner makes the tildes before it unavailable
      let openers := s.openers.map fun o =>
        if mark = '~' && o.mark = '~' then { o with closed := true } else o
      (left, { s with openers := openers })
    | o :: outer =>
      let n := min left o.left
      let inner := (flatten unpaired ++ o.content).reverse
      let paired := (wrap mark n inner).reverse
      let s : State :=
        if n < o.left then
          { s with openers := { o with left := o.left - n, content := paired } :: outer }
        else ({ s with openers := outer } : State).add paired
      close mark length both fuel (left - n) s

def step (s : State) : Piece → State
  | .inline i => s.add [i]
  | .run mark length opens closes =>
    let both := opens && closes
    let (left, s) := if closes then close mark length both (length + 1) length s else (length, s)
    if left = 0 then s
    else if opens then { s with openers := ⟨mark, length, left, both, false, []⟩ :: s.openers }
    else s.add [.text (List.replicate left mark)]

def finish (s : State) : List Inline := (flatten s.openers ++ s.base).reverse

end State

def resolve (pieces : List Piece) : List Inline := (pieces.foldl State.step {}).finish

end Emphasis
end Quizdown
