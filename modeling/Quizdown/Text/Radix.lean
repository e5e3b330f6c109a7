import Quizdown.Text.Basic

/-!
Natural numbers in positional notation, with the ASCII digits 0 to 9 and letters A to F of
either case.
-/
set_option autoImplicit false

namespace Quizdown
namespace Text

def digit? (radix : Nat) (c : Char) : Option Nat :=
  let value? : Option Nat :=
    if '0' ≤ c ∧ c ≤ '9' then some (c.toNat - '0'.toNat)
    else if 'a' ≤ c ∧ c ≤ 'f' then some (c.toNat - 'a'.toNat + 10)
    else if 'A' ≤ c ∧ c ≤ 'F' then some (c.toNat - 'A'.toNat + 10)
    else none
  value?.filter (· < radix)

def isDigit (radix : Nat) (c : Char) : Bool := (digit? radix c).isSome

def numeral (radix : Nat) (s : Text) : Nat :=
  s.foldl (fun n c => radix * n + (digit? radix c).getD 0) 0

end Text
end Quizdown
