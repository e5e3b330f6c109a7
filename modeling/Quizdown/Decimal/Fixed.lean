import Quizdown.Decimal.Binary64
import Quizdown.Text.Basic

/-!
Numbers written with a fixed number of decimal places. The exact value of the float is rounded,
a tie going to the even neighbour, and no exponent is ever written.
-/
set_option autoImplicit false

namespace Quizdown

def Text.digits (n : Nat) : Nat → Text
  | 0 => []
  | width + 1 => Text.digits (n / 10) width ++ [Nat.digitChar (n % 10)]

namespace Binary64

def roundedUnits (places mantissa : Nat) (exponent : Int) : Nat :=
  if 0 ≤ exponent then mantissa * twoTo exponent.toNat * tenTo places
  else roundDiv (mantissa * tenTo places) (twoTo (-exponent).toNat)

def unitsText (places units : Nat) : Text :=
  Text.ofNat (units / tenTo places) ++ '.' :: Text.digits units places

/-- The text with `places` decimal places. A negative zero keeps its sign. -/
def fixedText (places : Nat) : Binary64 → Text
  | nan => "NaN".toList
  | infinite negative => if negative then "-inf".toList else "inf".toList
  | finite negative mantissa exponent =>
    (if negative then ['-'] else []) ++ unitsText places (roundedUnits places mantissa exponent)

end Binary64

def gradeText (x : Float) : Text := (Binary64.ofFloat x).fixedText 7

/-- Percentages and tolerances have at most five decimal places, without zeros at the end and
without a sign on zero. -/
def fractionText (x : Float) : Text :=
  let short := Text.trimEndOf '.' (Text.trimEndOf '0' ((Binary64.ofFloat x).fixedText 5))
  if short = ['-', '0'] then ['0'] else short

end Quizdown
