/-!
The number a 64-bit float stands for, as a sign, a natural number and a power of two, and the
way back: the float nearest to a quotient of natural numbers, ties going to the even mantissa.
-/
set_option autoImplicit false

namespace Quizdown

inductive Binary64
  | nan
  | infinite (negative : Bool)
  /-- The number `mantissa * 2 ^ exponent` with a sign; zero has a sign too. -/
  | finite (negative : Bool) (mantissa : Nat) (exponent : Int)
deriving DecidableEq, Repr

namespace Binary64

def twoTo (n : Nat) : Nat := Nat.pow 2 n

def tenTo (n : Nat) : Nat := Nat.pow 10 n

def ofBits (bits : Nat) : Binary64 :=
  let negative : Bool := bits / twoTo 63 % 2 == 1
  let field : Nat := bits / twoTo 52 % twoTo 11
  let fraction : Nat := bits % twoTo 52
  if field = 2047 then
    if fraction = 0 then infinite negative else nan
  else if field = 0 then finite negative fraction (-1074)
  else finite negative (fraction + twoTo 52) (field - 1075 : Int)

def ofFloat (x : Float) : Binary64 := ofBits x.toBits.toNat

/-- The natural number nearest to `num / den`; a tie goes to the even one. -/
def roundDiv (num den : Nat) : Nat :=
  let q := num / den
  let r := num % den
  if 2 * r < den then q
  else if den < 2 * r then q + 1
  else if q % 2 = 0 then q else q + 1

def nearestBits (num den : Nat) : Nat :=
  if num = 0 then 0
  else
    -- the binary exponent of the quotient is `guess` or `guess - 1`
    let guess : Int := (num.log2 : Int) - den.log2
    let scaled (e : Int) : Nat × Nat :=
      if 0 ≤ e then (num, den * twoTo e.toNat) else (num * twoTo (-e).toNat, den)
    let below := let (n, d) := scaled guess; n < d
    let top : Int := if below then guess - 1 else guess
    let unit : Int := max (top - 52) (-1074)
    let (n, d) := scaled unit
    -- a mantissa that rounds up to a power of two carries into the exponent field
    let mantissa := roundDiv n d
    let field : Nat := (unit + 1074).toNat
    let bits := field * twoTo 52 + mantissa
    if bits < 2047 * twoTo 52 then bits else 2047 * twoTo 52

def nearest (num den : Nat) : Float := Float.ofBits (nearestBits num den).toUInt64

/-- The float nearest to `digits * 10 ^ exponent`. Beyond the range of floats the power is not
computed: the answer is infinity or zero. -/
def ofDecimal (digits : Nat) (exponent : Int) : Float :=
  if digits = 0 then 0.0
  else if exponent > 400 then nearest (twoTo 1024) 1
  else if exponent + (digits.log2 / 3 + 1 : Nat) < -400 then 0.0
  else if 0 ≤ exponent then nearest (digits * tenTo exponent.toNat) 1
  else nearest digits (tenTo (-exponent).toNat)

end Binary64
end Quizdown
