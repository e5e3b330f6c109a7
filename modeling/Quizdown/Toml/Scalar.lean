import Quizdown.Decimal.Binary64
import Quizdown.Toml.DateTime
import Quizdown.Toml.Value

/-!
Values written without quotes and brackets: booleans, integers, floats, dates and times.
-/
set_option autoImplicit false

namespace Quizdown
namespace Toml
namespace Scalar

/-- A run of digits in which single underscores may stand between digits: without them. -/
def digits? (radix : Nat) : Text → Option Text
  | [] => none
  | [c] => if Text.isDigit radix c then some [c] else none
  | c :: '_' :: s =>
    if Text.isDigit radix c then (digits? radix s).map fun rest => c :: rest else none
  | c :: s =>
    if Text.isDigit radix c then (digits? radix s).map fun rest => c :: rest else none

def whole? (s : Text) : Option Text :=
  (digits? 10 s).filter fun digits => digits.length = 1 || digits.head? != some '0'

def signed : Text → Bool × Text
  | '-' :: s => (true, s)
  | '+' :: s => (false, s)
  | s => (false, s)

def fits (bits : Nat) : Int → Bool
  | .ofNat n => n < Binary64.twoTo bits
  | .negSucc n => n < Binary64.twoTo (bits - 1)

def widestInteger : Nat := 128

def integer? (s : Text) : Option Int :=
  let n? : Option Int :=
    match s with
    | '0' :: 'x' :: s => (digits? 16 s).map fun digits => Text.numeral 16 digits
    | '0' :: 'o' :: s => (digits? 8 s).map fun digits => Text.numeral 8 digits
    | '0' :: 'b' :: s => (digits? 2 s).map fun digits => Text.numeral 2 digits
    | s =>
      let (negative, s) := signed s
      (whole? s).map fun digits =>
        let n : Int := Text.numeral 10 digits
        if negative then -n else n
  n?.filter (fits widestInteger)

def isMark (c : Char) : Bool := c == 'e' || c == 'E'

def parts? (s : Text) : Option (Text × Text × Int) := do
  let significand := s.takeWhile fun c => !isMark c
  let exponent ← match s.dropWhile fun c => !isMark c with
    | [] => some 0
    | _ :: e =>
      let (negative, e) := signed e
      (digits? 10 e).map fun digits =>
        let n : Int := Text.numeral 10 digits
        if negative then -n else n
  let whole ← whole? (significand.takeWhile (· ≠ '.'))
  match significand.dropWhile (· ≠ '.') with
  | [] => some (whole, [], exponent)
  | _ :: places => (digits? 10 places).map fun places => (whole, places, exponent)

/-- A float: infinite, no number, or a decimal number within the range of floats. -/
def float? (s : Text) : Option Float :=
  let (negative, s) := signed s
  let magnitude? : Option Float :=
    if s = "inf".toList then some (1.0 / 0.0)
    else if s = "nan".toList then some (0.0 / 0.0)
    else if !s.any (fun c => c == '.' || isMark c) then none
    else
      (parts? s).bind fun (whole, places, exponent) =>
        let x := Binary64.ofDecimal (Text.numeral 10 (whole ++ places)) (exponent - places.length)
        if x.isFinite then some x else none
  magnitude?.map fun x => if negative then -x else x

def ofText? (s : Text) : Option Value :=
  if s = "true".toList then some (.boolean true)
  else if s = "false".toList then some (.boolean false)
  else
    match integer? s with
    | some n => some (.integer n)
    | none =>
      match float? s with
      | some x => some (.float x)
      | none => if DateTime.accepts s then some (.dateTime s) else none

def isEnd (c : Char) : Bool := " \t\r\n#=,[]\x7b\x7d".toList.contains c

/-- The text of a scalar in front. A single space may part a date from a time. -/
def split (s : Text) : Text × Text :=
  let first := s.takeWhile fun c => !isEnd c
  match s.dropWhile fun c => !isEnd c with
  | ' ' :: c :: rest =>
    if c.isDigit && DateTime.date? first == some [] then
      (first ++ ' ' :: (c :: rest).takeWhile fun c => !isEnd c,
        (c :: rest).dropWhile fun c => !isEnd c)
    else (first, ' ' :: c :: rest)
  | rest => (first, rest)

def read? (s : Text) : Option (Value × Text) :=
  let (written, rest) := split s
  (ofText? written).map fun v => (v, rest)

end Scalar
end Toml
end Quizdown
