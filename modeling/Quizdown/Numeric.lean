import Quizdown.Decimal.Binary64
import Quizdown.Text.Basic
import Quizdown.Text.Digit
import Quizdown.Text.Radix

/-!
A numeric answer: a decimal number, and after a plus-minus sign the accepted error. Decimal digits
of every script are recognised.
-/
set_option autoImplicit false

namespace Quizdown

structure NumericAnswer where
  value : Text
  tolerance : Option Text
deriving DecidableEq, Repr

namespace NumericAnswer

/-- An unsigned decimal number at the start of the text: digits with an optional point after
them, or a point with digits after it. -/
def readUnsigned? (s : Text) : Option (Text × Text) :=
  let whole := s.takeWhile Text.isDecimalDigit
  let rest := s.dropWhile Text.isDecimalDigit
  match rest with
  | '.' :: after =>
    let places := after.takeWhile Text.isDecimalDigit
    if whole.isEmpty && places.isEmpty then none
    else some (whole ++ '.' :: places, after.dropWhile Text.isDecimalDigit)
  | _ => if whole.isEmpty then none else some (whole, rest)

def readSigned? : Text → Option (Text × Text)
  | '+' :: s => (readUnsigned? s).map fun (n, rest) => ('+' :: n, rest)
  | '-' :: s => (readUnsigned? s).map fun (n, rest) => ('-' :: n, rest)
  | s => readUnsigned? s

def plusMinus? : Text → Option Text
  | '±' :: s => some s
  | '+' :: '-' :: s => some s
  | '+' :: '/' :: '-' :: s => some s
  | _ => none

def ofText? (s : Text) : Option NumericAnswer :=
  match readSigned? (Text.trimStart s) with
  | none => none
  | some (value, rest) =>
    match Text.trimStart rest with
    | [] => some ⟨value, none⟩
    | rest =>
      match plusMinus? rest with
      | none => none
      | some rest =>
        match readUnsigned? (Text.trimStart rest) with
        | none => none
        | some (tolerance, rest) =>
          if (Text.trimStart rest).isEmpty then some ⟨value, some tolerance⟩ else none

def shownValue (n : NumericAnswer) : Text := n.value.dropWhile (· == '+')

/-- The number that an unsigned decimal in ASCII digits denotes, as a count of units of a power of
ten: `12.5` is 125 units of the power -1. -/
def denotation? (s : Text) : Option (Nat × Int) :=
  let whole := s.takeWhile Char.isDigit
  match s.dropWhile Char.isDigit with
  | [] => some (Text.numeral 10 whole, 0)
  | '.' :: places =>
    if places.all Char.isDigit then
      some (Text.numeral 10 (whole ++ places), -(places.length : Int))
    else none
  | _ => none

/-- The accepted error: none written, or none that can be read, is zero. -/
def toleranceValue (n : NumericAnswer) : Float :=
  match n.tolerance.bind denotation? with
  | some (digits, exponent) => Binary64.ofDecimal digits exponent
  | none => 0.0

end NumericAnswer
end Quizdown
