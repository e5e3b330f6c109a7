import Quizdown.Directive.Token

/-!
Taking the directives out of a fragment. A token leaves with the blanks after it where text or a
tag would otherwise be followed by two gaps, and with the blanks in front of it at the end of an
element. A comment that held nothing but tokens leaves too.
-/
set_option autoImplicit false

namespace Quizdown

structure Extracted where
  directives : List Directive
  text : Text
deriving DecidableEq, Repr

namespace Directive

def gaps : List Part → Text × List (Directive × Text)
  | [] => ([], [])
  | .char c :: rest => let (before, tokens) := gaps rest; (c :: before, tokens)
  | .code raw :: rest => let (before, tokens) := gaps rest; (raw ++ before, tokens)
  | .token d tail :: rest => let (before, tokens) := gaps rest; ([], (d, tail ++ before) :: tokens)

/-- Blanks after a token are dropped if this text stands before it. -/
def swallowsBlanks (before : Text) : Bool :=
  before.isEmpty || before.getLast?.any fun c => Text.isBlank c || c == '>'

/-- Closes the gap a token leaves between the text before it and the text after it; `last` says
that no token follows. -/
def closeGap (before after : Text) (last : Bool) : Text :=
  let after := if swallowsBlanks before then Text.trimStart after else after
  let before :=
    if (after.isEmpty && last) || after.head? == some '<' then Text.trimEnd before else before
  before ++ after

def withoutTokens (before : Text) : List (Directive × Text) → Text
  | [] => before
  | (_, after) :: rest => withoutTokens (closeGap before after rest.isEmpty) rest

def emptyComment? (s : Text) : Option Text :=
  (Text.stripPrefix? "<!--".toList (Text.trimStart s)).bind fun inside =>
    Text.stripPrefix? commentEnd (Text.trimStart inside)

/-- Drops the comments that hold only blanks, and the blanks in front of them. The number bounds
the steps. -/
def dropEmptyCommentsFrom : Nat → Text → Text
  | 0, s => s
  | _, [] => []
  | fuel + 1, c :: s =>
    match emptyComment? (c :: s) with
    | some rest => dropEmptyCommentsFrom fuel rest
    | none => c :: dropEmptyCommentsFrom fuel s

def dropEmptyComments (s : Text) : Text := dropEmptyCommentsFrom s.length s

def extract (fragment : Text) : Extracted :=
  match gaps (parts fragment) with
  | (_, []) => ⟨[], fragment⟩
  | (before, tokens) =>
    ⟨tokens.map Prod.fst, dropEmptyComments (withoutTokens before tokens)⟩

def strip (fragment : Text) : Text := (extract fragment).text

/-- Removes the tokens of the directives from a text, each once and in order; one that does not
occur after the previous one is passed over. -/
def removeFrom : List Directive → Text → Text
  | [], s => s
  | d :: rest, s =>
    match Text.splitFirst? d.token s with
    | some (before, after) => before ++ removeFrom rest after
    | none => removeFrom rest s

end Directive
end Quizdown
