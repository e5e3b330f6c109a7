import Quizdown.Decimal.Fixed
import Mathlib.Algebra.Order.Field.Power
import Mathlib.Algebra.Order.Field.Rat
import Mathlib.Tactic.FieldSimp
import Mathlib.Tactic.Linarith
import Mathlib.Tactic.Positivity
import Mathlib.Tactic.Ring

/-! Rounding to the nearest natural number, a tie going to the even one: what a quotient is rounded
to, and the number of units that a float is written with. -/
set_option autoImplicit false

namespace Quizdown
namespace Binary64

structure RoundsTo (x : ℚ) (k : Nat) : Prop where
  near : |x - k| ≤ 1 / 2
  even : |x - k| = 1 / 2 → k % 2 = 0

namespace RoundsTo

variable {x y : ℚ} {k l : Nat}

theorem bounds (h : RoundsTo x k) : (k : ℚ) - 1 / 2 ≤ x ∧ x ≤ k + 1 / 2 := by
  have hnear := abs_le.mp h.near
  constructor <;> linarith [hnear.1, hnear.2]

theorem of_lt (h : |x - k| < 1 / 2) : RoundsTo x k := ⟨h.le, fun heq => absurd heq h.ne⟩

theorem nearest (h : RoundsTo x k) (l : Nat) :
    |x - k| ≤ |x - l| ∧ (|x - k| = |x - l| → l = k ∨ k % 2 = 0) := by
  by_cases hlk : l = k
  · exact ⟨by rw [hlk], fun _ => .inl hlk⟩
  · have hapart : (1 : ℚ) ≤ |(k : ℚ) - l| := by
      have hint : (1 : Int) ≤ |(k : Int) - l| := Int.one_le_abs (by omega)
      exact_mod_cast hint
    have htriangle : |(k : ℚ) - l| ≤ |x - k| + |x - l| := by
      have hsum := abs_sub_le (k : ℚ) x l
      rwa [abs_sub_comm (k : ℚ) x] at hsum
    exact ⟨by linarith [h.near], fun heq => .inr (h.even (by linarith [h.near]))⟩

theorem mono (hk : RoundsTo x k) (hl : RoundsTo y l) (hxy : x ≤ y) : k ≤ l := by
  by_contra hlt
  have hle : (l : ℚ) + 1 ≤ k := by exact_mod_cast Nat.not_le.mp hlt
  have hx := hk.bounds.1
  have hy := hl.bounds.2
  -- both are ties between neighbours, which are not both even
  have hkeven : k % 2 = 0 := hk.even (by rw [abs_sub_comm, abs_of_nonneg] <;> linarith)
  have hleven : l % 2 = 0 := hl.even (by rw [abs_of_nonneg] <;> linarith)
  have hnext : k = l + 1 := by
    have hcast : (k : ℚ) = l + 1 := by linarith
    exact_mod_cast hcast
  omega

theorem unique (hk : RoundsTo x k) (hl : RoundsTo x l) : k = l :=
  le_antisymm (hk.mono hl le_rfl) (hl.mono hk le_rfl)

theorem self (k : Nat) : RoundsTo k k := of_lt (by norm_num)

theorem of_eq (h : x = k) : RoundsTo x k := h ▸ self k

end RoundsTo

variable {num den : Nat}

/-! A quotient as its whole part and the rest. -/

theorem div_eq_whole_add_rest (num : Nat) (hden : 0 < den) :
    (num : ℚ) / den = (num / den : Nat) + (num % den : Nat) / (den : ℚ) := by
  have hpos : (0 : ℚ) < den := by exact_mod_cast hden
  have hnat : (num : ℚ) = den * (num / den : Nat) + (num % den : Nat) := by
    exact_mod_cast (Nat.div_add_mod num den).symm
  rw [hnat]
  field_simp

theorem rest_lt_one (num : Nat) (hden : 0 < den) : (num % den : Nat) / (den : ℚ) < 1 := by
  rw [div_lt_one (by exact_mod_cast hden)]
  exact_mod_cast Nat.mod_lt num hden

theorem div_lt_half_iff (r : Nat) (hden : 0 < den) : (r : ℚ) / den < 1 / 2 ↔ 2 * r < den := by
  rw [div_lt_div_iff₀ (by exact_mod_cast hden) two_pos, one_mul, mul_comm]
  exact_mod_cast Iff.rfl

theorem div_eq_half_iff (r : Nat) (hden : 0 < den) : (r : ℚ) / den = 1 / 2 ↔ 2 * r = den := by
  rw [div_eq_div_iff (by exact_mod_cast hden.ne') two_ne_zero, one_mul, mul_comm]
  exact_mod_cast Iff.rfl

theorem roundsTo_roundDiv (hden : 0 < den) : RoundsTo (num / den) (roundDiv num den) := by
  have hrest := rest_lt_one num hden
  have hhalf := div_eq_half_iff (num % den) hden
  have hbelow := div_lt_half_iff (num % den) hden
  have hnonneg : (0 : ℚ) ≤ (num % den : Nat) / (den : ℚ) := by positivity
  rw [div_eq_whole_add_rest num hden]
  generalize (num % den : Nat) / (den : ℚ) = part at *
  unfold roundDiv
  dsimp only
  split_ifs with hlow hhigh heven
  · have hpart := hbelow.mpr hlow
    refine .of_lt ?_
    rw [add_sub_cancel_left, abs_of_nonneg hnonneg]
    exact hpart
  · have hpart : 1 / 2 < part := by
      rcases lt_trichotomy part (1 / 2) with h | h | h
      · exact absurd (hbelow.mp h) hlow
      · exact absurd (hhalf.mp h) (by omega)
      · exact h
    refine .of_lt ?_
    rw [Nat.cast_add, Nat.cast_one, abs_lt]
    constructor <;> linarith
  · have hpart := hhalf.mpr (by omega)
    refine ⟨?_, fun _ => heven⟩
    rw [add_sub_cancel_left, hpart, abs_of_nonneg (by norm_num)]
  · have hpart := hhalf.mpr (by omega)
    refine ⟨?_, fun _ => by omega⟩
    rw [hpart, Nat.cast_add, Nat.cast_one, abs_le]
    constructor <;> linarith

def magnitude (mantissa : Nat) (exponent : Int) : ℚ := mantissa * 2 ^ exponent

theorem magnitude_zero (exponent : Int) : magnitude 0 exponent = 0 := by simp [magnitude]

theorem magnitude_nonneg (mantissa : Nat) (exponent : Int) : 0 ≤ magnitude mantissa exponent := by
  unfold magnitude
  positivity

theorem roundsTo_roundedUnits (places mantissa : Nat) (exponent : Int) :
    RoundsTo (magnitude mantissa exponent * 10 ^ places)
      (roundedUnits places mantissa exponent) := by
  unfold roundedUnits magnitude
  split_ifs with hexponent
  · refine .of_eq ?_
    obtain ⟨e, rfl⟩ := Int.eq_ofNat_of_zero_le hexponent
    simp [twoTo, tenTo]
  · obtain ⟨e, rfl⟩ : ∃ e : Nat, exponent = -e := ⟨exponent.natAbs, by omega⟩
    have hquotient : (mantissa : ℚ) * 2 ^ (-(e : Int)) * 10 ^ places =
        (mantissa * tenTo places : Nat) / (twoTo e : Nat) := by
      simp [twoTo, tenTo, zpow_neg]
      ring
    have hexp : (- -(e : Int)).toNat = e := by omega
    rw [hexp, hquotient]
    exact roundsTo_roundDiv (Nat.pow_pos two_pos)

end Binary64
end Quizdown
