import Quizdown.Text.Radix

/-!
The four forms of a quoted string: between double quotes, where a backslash begins an escape
sequence, and between single quotes, where every character stands for itself; each form on one
line or, between three quotes, on several. Every reader answers the content and what follows the
closing quotes.
-/
set_option autoImplicit false

namespace Quizdown
namespace Toml
namespace Quoted

def isPlain (c : Char) : Bool := c == '\t' || (0x20 ≤ c.toNat && c.toNat ≠ 0x7F)

def numbered? (digits : Nat) (s : Text) : Option (Char × Text) :=
  let number := s.take digits
  let n := Text.numeral 16 number
  if number.length = digits ∧ number.all (Text.isDigit 16) then
    if h : n.isValidChar then some (Char.ofNatAux n h, s.drop digits) else none
  else none

def escape? : Text → Option (Char × Text)
  | 'b' :: s => some ('\x08', s)
  | 't' :: s => some ('\t', s)
  | 'n' :: s => some ('\n', s)
  | 'f' :: s => some ('\x0C', s)
  | 'r' :: s => some ('\r', s)
  | 'e' :: s => some ('\x1B', s)
  | '"' :: s => some ('"', s)
  | '\\' :: s => some ('\\', s)
  | 'x' :: s => numbered? 2 s
  | 'u' :: s => numbered? 4 s
  | 'U' :: s => numbered? 8 s
  | _ => none

def isSpace (c : Char) : Bool := c == ' ' || c == '\t'

def lineBreak? : Text → Option Text
  | '\n' :: s => some s
  | '\r' :: '\n' :: s => some s
  | _ => none

def dropLines : Text → Text
  | '\r' :: '\n' :: s => dropLines s
  | c :: s => if isSpace c || c == '\n' then dropLines s else c :: s
  | [] => []

/-- The text behind a backslash that ends its line: the line break and the indentation after it
are dropped. -/
def continuation? (s : Text) : Option Text :=
  (lineBreak? (s.dropWhile isSpace)).map dropLines

def basicFrom : Nat → Text → Option (Text × Text)
  | 0, _ => none
  | _, '"' :: s => some ([], s)
  | fuel + 1, '\\' :: s => do
    let (c, rest) ← escape? s
    let (content, rest) ← basicFrom fuel rest
    some (c :: content, rest)
  | fuel + 1, c :: s =>
    if isPlain c then (basicFrom fuel s).map fun (content, rest) => (c :: content, rest) else none
  | _, [] => none

def literal : Text → Option (Text × Text)
  | '\'' :: s => some ([], s)
  | c :: s =>
    if isPlain c then (literal s).map fun (content, rest) => (c :: content, rest) else none
  | [] => none

/-- The end of a string between three quotes: up to two more quotes belong to the content. -/
def closing? (quote : Char) (s : Text) : Option (Text × Text) :=
  let quotes := (s.take 5).takeWhile (· == quote)
  if quotes.length < 3 then none else some (quotes.drop 3, s.drop quotes.length)

def basicLinesFrom : Nat → Text → Option (Text × Text)
  | 0, _ => none
  | _, [] => none
  | fuel + 1, c :: s =>
    let keep (c : Char) (rest : Text) : Option (Text × Text) :=
      (basicLinesFrom fuel rest).map fun (content, rest) => (c :: content, rest)
    match c with
    | '"' => (closing? '"' (c :: s)).orElse fun _ => keep c s
    | '\\' =>
      match continuation? s with
      | some rest => basicLinesFrom fuel rest
      | none =>
        match escape? s with
        | some (c, rest) => keep c rest
        | none => none
    | '\r' => if s.head? = some '\n' then keep c s else none
    | _ => if isPlain c || c == '\n' then keep c s else none

def literalLines : Text → Option (Text × Text)
  | [] => none
  | c :: s =>
    let keep (_ : Unit) : Option (Text × Text) :=
      (literalLines s).map fun (content, rest) => (c :: content, rest)
    match c with
    | '\'' => (closing? '\'' (c :: s)).orElse keep
    | '\r' => if s.head? = some '\n' then keep () else none
    | _ => if isPlain c || c == '\n' then keep () else none

def line? : Text → Option (Text × Text)
  | '"' :: s => basicFrom (s.length + 1) s
  | '\'' :: s => literal s
  | _ => none

def read? : Text → Option (Text × Text)
  | '"' :: '"' :: '"' :: s => basicLinesFrom (s.length + 1) ((lineBreak? s).getD s)
  | '\'' :: '\'' :: '\'' :: s => literalLines ((lineBreak? s).getD s)
  | s => line? s

end Quoted
end Toml
end Quizdown
