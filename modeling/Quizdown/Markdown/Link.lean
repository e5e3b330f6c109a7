import Quizdown.Markdown.Entity
import Quizdown.Markdown.Line

/-!
The parts of links: labels, targets and titles, autolinks in angle brackets, and reference
definitions. Texts are those of a block, with a line feed for each line break. Recognisers work at
the start of a text and answer how many characters they cover.
-/
set_option autoImplicit false

namespace Quizdown

def isAsciiPunctuation (c : Char) : Bool :=
  let n := c.toNat
  (33 ≤ n && n ≤ 47) || (58 ≤ n && n ≤ 64) || (91 ≤ n && n ≤ 96) || (123 ≤ n && n ≤ 126)

structure LinkTarget where
  url : Text
  title : Text
deriving DecidableEq, Repr

namespace Link

/-- A text with its backslash escapes and character references replaced. The number bounds the
steps. -/
def unescapeFrom : Nat → Text → Text
  | 0, s => s
  | _, [] => []
  | fuel + 1, '\\' :: c :: s =>
    if isAsciiPunctuation c then c :: unescapeFrom fuel s else '\\' :: unescapeFrom fuel (c :: s)
  | fuel + 1, c :: s =>
    match Entity.read? (c :: s) with
    | some (t, n) => t ++ unescapeFrom fuel ((c :: s).drop n)
    | none => c :: unescapeFrom fuel s

def unescape (s : Text) : Text := unescapeFrom s.length s

def pointed? : Text → Option Nat
  | [] => none
  | '\\' :: c :: s =>
    if isAsciiPunctuation c then (pointed? s).map (· + 2)
    else if c = '\n' || c = '<' then none
    else (pointed? s).map (· + 2)
  | c :: s =>
    if c = '>' then some 0
    else if c = '\n' || c = '<' then none
    else (pointed? s).map (· + 1)

/-- Length of a target without brackets: up to a blank, a control character or a parenthesis that
closes none of its own. The first number counts the open parentheses, of which at most six may
stand inside each other. -/
def bare? : Nat → Text → Option Nat
  | depth, '\\' :: c :: s =>
    if isAsciiPunctuation c then (bare? depth s).map (· + 2)
    else (bare? depth (c :: s)).map (· + 1)
  | depth, c :: s =>
    if c.toNat ≤ 32 then if depth = 0 then some 0 else none
    else if c = '(' then if 5 < depth then none else (bare? (depth + 1) s).map (· + 1)
    else if c = ')' then
      if depth = 0 then some 0 else (bare? (depth - 1) s).map (· + 1)
    else (bare? depth s).map (· + 1)
  | depth, [] => if depth = 0 then some 0 else none
termination_by _ s => s.length

def target? : Text → Option (Text × Nat)
  | '<' :: s => (pointed? s).map fun n => (s.take n, n + 2)
  | s => (bare? 0 s).map fun n => (s.take n, n)

/-- The inside of a title up to its closing mark, with escapes and character references replaced.
Blanks at the start of a line are dropped. The number bounds the steps. -/
def titleBody? (opening closing : Char) : Nat → Text → Option (Text × Nat)
  | 0, _ => none
  | _, [] => none
  | fuel + 1, c :: s =>
    if c = closing then some ([], 1)
    else if c = opening then none
    else if c = '\n' then
      let gap := (s.takeWhile fun x => x == ' ' || x == '\t').length
      (titleBody? opening closing fuel (s.drop gap)).map fun (t, n) => ('\n' :: t, n + gap + 1)
    else if c = '\\' && s.head?.any isAsciiPunctuation then
      (titleBody? opening closing fuel s.tail).map fun (t, n) => (s.take 1 ++ t, n + 2)
    else
      match Entity.read? (c :: s) with
      | some (t, k) =>
        (titleBody? opening closing fuel ((c :: s).drop k)).map fun (u, n) => (t ++ u, n + k)
      | none => (titleBody? opening closing fuel s).map fun (t, n) => (c :: t, n + 1)

def title? : Text → Option (Text × Nat)
  | c :: s =>
    if c = '"' || c = '\'' then (titleBody? c c (s.length + 1) s).map fun (t, n) => (t, n + 1)
    else if c = '(' then (titleBody? '(' ')' (s.length + 1) s).map fun (t, n) => (t, n + 1)
    else none
  | [] => none

def separator (s : Text) : Nat :=
  let before := (s.takeWhile Line.isSpace).length
  match s.drop before with
  | '\n' :: r => before + 1 + (r.takeWhile Line.isSpace).length
  | _ => before

def inline? : Text → Option (LinkTarget × Nat)
  | '(' :: s =>
    let gap := separator s
    match target? (s.drop gap) with
    | none => none
    | some (url, n) =>
      let start := gap + n + separator (s.drop (gap + n))
      let (title, stop) :=
        match title? (s.drop start) with
        | some (t, m) => (t, start + m + separator (s.drop (start + m)))
        | none => ([], start)
      if (s.drop stop).head? = some ')' then some (⟨unescape url, title⟩, stop + 2) else none
  | _ => none

/-- The inside of a label up to its closing bracket: every run of blanks becomes one. At most 999
characters, no bracket inside, not only blanks. -/
def labelBody? : Nat → Text → Option (Text × Nat)
  | 0, _ => none
  | _, [] => none
  | fuel + 1, c :: s =>
    if c = ']' then some ([], 1)
    else if c = '[' then none
    else if c = '\\' then
      match s with
      | [] => none
      | d :: r => (labelBody? (fuel - 1) r).map fun (t, n) => (c :: d :: t, n + 2)
    else if Line.isSpace c || c = '\n' then
      let gap := s.takeWhile fun x => Line.isSpace x || x == '\n'
      if 1 < ((c :: gap).filter (· == '\n')).length then none
      else (labelBody? (fuel - gap.length) (s.drop gap.length)).map fun (t, n) =>
        (' ' :: t, n + gap.length + 1)
    else (labelBody? fuel s).map fun (t, n) => (c :: t, n + 1)

def label? : Text → Option (Text × Nat)
  | '[' :: s =>
    match labelBody? 1000 s with
    | some (t, n) => if Line.isBlankText t then none else some (t, n + 1)
    | none => none
  | _ => none

/-- Length of an absolute address up to the closing bracket: a scheme of two to 32 characters, a
colon, and no blanks or brackets. -/
def address? (s : Text) : Option Nat :=
  let scheme := (s.takeWhile fun c => c.isAlphanum || c == '.' || c == '-' || c == '+').length
  if s.head?.any Char.isAlpha && 2 ≤ scheme && scheme ≤ 32 && (s.drop scheme).head? == some ':' then
    let rest := (s.drop scheme).takeWhile fun c => 32 < c.toNat && c != '<' && c != '>'
    if (s.drop (scheme + rest.length)).head? == some '>' then some (scheme + rest.length) else none
  else none

def isMailChar (c : Char) : Bool :=
  c.isAlphanum || ".!#$%&'*+/=?^_\x60\x7b|\x7d~-".toList.contains c

def host? : Nat → Text → Option Nat
  | 0, _ => none
  | fuel + 1, s =>
    let name := s.takeWhile fun c => c.isAlphanum || c == '-'
    if name.isEmpty || 63 < name.length || name.head? == some '-' || name.getLast? == some '-' then
      none
    else
      match s.drop name.length with
      | '.' :: r => (host? fuel r).map (· + name.length + 1)
      | _ => some name.length

def mail? (s : Text) : Option Nat :=
  let user := (s.takeWhile isMailChar).length
  if user = 0 then none
  else
    match s.drop user with
    | '@' :: r =>
      (host? (r.length + 1) r).bind fun n =>
        if (r.drop n).head? = some '>' then some (user + 1 + n) else none
    | _ => none

def auto? : Text → Option (Text × Nat)
  | '<' :: s =>
    ((address? s).orElse fun _ => mail? s).map fun n => (s.take n, n + 2)
  | _ => none

def definition? (s : Text) : Option (Text × LinkTarget × Nat) :=
  match label? s with
  | none => none
  | some (label, n) =>
    match s.drop n with
    | ':' :: r =>
      let gap := separator r
      match target? (r.drop gap) with
      | none => none
      | some (url, m) =>
        if m = 0 then none
        else
          let after := r.drop (gap + m)
          let rest (k : Nat) : Nat := ((after.drop k).takeWhile Line.isSpace).length
          let ends (k : Nat) : Bool :=
            match after.drop (k + rest k) with
            | [] => true
            | c :: _ => c == '\n'
          let gap' := separator after
          let covered := n + 1 + gap + m
          let bareTarget : Option (Text × LinkTarget × Nat) :=
            if ends 0 then some (label, ⟨unescape url, []⟩, covered + rest 0) else none
          if gap' = 0 then bareTarget
          else
            match title? (after.drop gap') with
            | some (title, k) =>
              if ends (gap' + k) then
                some (label, ⟨unescape url, title⟩, covered + gap' + k + rest (gap' + k))
              else bareTarget
            | none => bareTarget
    | _ => none

end Link
end Quizdown
