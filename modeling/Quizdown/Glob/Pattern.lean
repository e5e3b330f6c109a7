import Quizdown.Text.Basic

/-!
Wildcard patterns for one name of a path: `?` stands for one character, `*` for any number of
them, `[abc]` for one of a class and `[!abc]` for one outside it. The name `**` stands for any
number of directories.
-/
set_option autoImplicit false

namespace Quizdown
namespace Glob

structure CharRange where
  first : Char
  last : Char
deriving DecidableEq, Repr

def CharRange.holds (r : CharRange) (c : Char) : Bool := r.first ≤ c && c ≤ r.last

inductive Token
  | char (c : Char)
  | anyChar
  | anyRun
  | anyDirectories
  | inClass (ranges : List CharRange)
  | outsideClass (ranges : List CharRange)
deriving DecidableEq, Repr

inductive Fault
  | tooManyStars
  | partialDoubleStar
  | badClass
deriving DecidableEq, Repr

def Fault.message : Fault → Text
  | tooManyStars => "wildcards are either regular `*` or recursive `**`".toList
  | partialDoubleStar => "recursive wildcards must form a single path component".toList
  | badClass => "invalid range pattern".toList

structure PatternError where
  position : Nat
  fault : Fault
deriving DecidableEq, Repr

def PatternError.message (e : PatternError) : Text :=
  "Pattern syntax error near position ".toList ++ Text.ofNat e.position ++ ": ".toList ++
    e.fault.message

def ranges : Text → List CharRange
  | a :: '-' :: b :: rest => ⟨a, b⟩ :: ranges rest
  | c :: rest => ⟨c, c⟩ :: ranges rest
  | [] => []

/-- A class behind its opening bracket: the token and its length. A closing bracket that comes
first is a member. -/
def class? : Text → Option (Token × Nat)
  | '!' :: first :: rest =>
    if rest.contains ']' then
      let inside := first :: rest.takeWhile (· ≠ ']')
      some (.outsideClass (ranges inside), inside.length + 2)
    else none
  | first :: rest =>
    if first ≠ '!' && rest.contains ']' then
      let inside := first :: rest.takeWhile (· ≠ ']')
      some (.inClass (ranges inside), inside.length + 1)
    else none
  | [] => none

/-- The tokens from a position on. A double star must follow the start or a slash and stand before
a slash, which belongs to it, or the end. The number bounds the characters. -/
def tokensFrom : Nat → Nat → Option Char → Text → Except PatternError (List Token)
  | 0, _, _, _ => .ok []
  | _, _, _, [] => .ok []
  | fuel + 1, position, before, c :: s =>
    let go (t : Token) (length : Nat) (before : Option Char) (rest : Text) :
        Except PatternError (List Token) :=
      (tokensFrom fuel (position + length) before rest).map (t :: ·)
    if c = '?' then go .anyChar 1 (some c) s
    else if c = '*' then
      let stars := 1 + (s.takeWhile (· = '*')).length
      let rest := s.dropWhile (· = '*')
      if stars = 1 then go .anyRun 1 (some c) rest
      else if stars > 2 then .error ⟨position + 2, .tooManyStars⟩
      else if before.any (· ≠ '/') then .error ⟨position - 1, .partialDoubleStar⟩
      else
        match rest with
        | [] => go .anyDirectories 2 (some c) []
        | '/' :: rest => go .anyDirectories 3 (some '/') rest
        | _ => .error ⟨position + 2, .partialDoubleStar⟩
    else if c = '[' then
      match class? s with
      | some (t, length) => go t (length + 1) (some ']') (s.drop length)
      | none => .error ⟨position, .badClass⟩
    else go (.char c) 1 (some c) s

def tokens (pattern : Text) : Except PatternError (List Token) :=
  tokensFrom (pattern.length + 1) 0 none pattern

def matchesName : List Token → Text → Bool
  | [], name => name.isEmpty
  | .anyRun :: rest, name => anyTail (matchesName rest) name
  | .anyDirectories :: rest, name => anyTail (matchesName rest) name
  | _ :: _, [] => false
  | .char d :: rest, c :: name => c == d && matchesName rest name
  | .anyChar :: rest, _ :: name => matchesName rest name
  | .inClass rs :: rest, c :: name => (rs.any (·.holds c)) && matchesName rest name
  | .outsideClass rs :: rest, c :: name => !(rs.any (·.holds c)) && matchesName rest name
where
  anyTail (test : Text → Bool) : Text → Bool
    | [] => test []
    | c :: s => test (c :: s) || anyTail test s

inductive Component
  | literal (name : Text)
  | directories
  | wild (tokens : List Token)
deriving DecidableEq, Repr

def literal? : List Token → Option Text
  | [] => some []
  | .char c :: rest => (literal? rest).map (c :: ·)
  | _ => none

def Component.ofTokens (ts : List Token) : Component :=
  match literal? ts with
  | some name => .literal name
  | none => if ts.contains .anyDirectories then .directories else .wild ts

def Component.accepts : Component → Text → Bool
  | .literal name, s => name == s
  | .directories, _ => true
  | .wild ts, s => matchesName ts s

structure Pattern where
  absolute : Bool
  components : List Component
  directoriesOnly : Bool
deriving DecidableEq, Repr

def segments (s : Text) : Texts :=
  let pieces := Text.splitBy (· == '/') s
  if pieces.getLast? == some [] then pieces.dropLast else pieces

def componentsOf : Texts → Except PatternError (List Component)
  | [] => .ok []
  | s :: rest =>
    match tokens s with
    | .error e => .error e
    | .ok ts => (componentsOf rest).map (Component.ofTokens ts :: ·)

def Pattern.ofText (s : Text) : Except PatternError Pattern :=
  match tokens s with
  | .error e => .error e
  | .ok _ =>
    let absolute := s.head? == some '/'
    let rest := if absolute then s.drop 1 else s
    let names := if rest.isEmpty then [[]] else segments rest
    (componentsOf names).map fun cs => ⟨absolute, cs, s.getLast? == some '/'⟩

end Glob
end Quizdown
