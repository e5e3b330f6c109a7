import Quizdown.Proofs.Decimal.Nearest
import Mathlib.Algebra.Order.Floor.Semiring
import Mathlib.Data.Rat.Floor

/-! How near the nearest float is, and on which side of two neighbouring floats it lies. -/
set_option autoImplicit false

namespace Quizdown
namespace Binary64

variable {x : ℚ} {m n p : Nat} {e f u : Int}

theorem exists_near (hx : 0 ≤ x) (hupper : x < 2 ^ (u + 53)) :
    ∃ k : Nat, k ≤ 2 ^ 53 ∧ |x - magnitude k u| ≤ 2 ^ u / 2 := by
  have hpos := zpow_two_pos u
  have hscaled : x = x / 2 ^ u * 2 ^ u := (div_mul_cancel₀ x hpos.ne').symm
  have hnonneg : 0 ≤ x / 2 ^ u := div_nonneg hx hpos.le
  have hlt : x / 2 ^ u < 2 ^ 53 := by
    rw [div_lt_iff₀ hpos, mul_comm]
    rw [zpow_two_add] at hupper
    exact_mod_cast hupper
  have hbelow := Nat.floor_le hnonneg
  have habove := Nat.lt_floor_add_one (x / 2 ^ u)
  have hfloor : ⌊x / 2 ^ u⌋₊ < 2 ^ 53 := by
    rw [Nat.floor_lt hnonneg]
    exact_mod_cast hlt
  generalize x / 2 ^ u = y at *
  generalize ⌊y⌋₊ = k at *
  -- the nearer of the two multiples around the number
  rcases le_total y (k + 1 / 2) with hhalf | hhalf
  · refine ⟨k, hfloor.le, ?_⟩
    rw [hscaled, magnitude, ← sub_mul, abs_of_nonneg (mul_nonneg (by linarith) hpos.le)]
    nlinarith
  · refine ⟨k + 1, hfloor, ?_⟩
    rw [hscaled, magnitude, ← sub_mul, Nat.cast_add, Nat.cast_one,
      abs_of_nonpos (mul_nonpos_of_nonpos_of_nonneg (by linarith) hpos.le)]
    nlinarith

theorem NearestTo.error (h : NearestTo x (.finite false m e)) (hx : 0 ≤ x) (hleast : -1074 ≤ u)
    (hgreatest : u ≤ 970) (hupper : x < 2 ^ (u + 53)) : |x - magnitude m e| ≤ 2 ^ u / 2 := by
  obtain ⟨k, hk, hnear⟩ := exists_near hx hupper
  obtain ⟨n, f, hfits, hsame⟩ := exists_fits hk hleast hgreatest
  cases h with
  | finite _ _ near _ =>
    rw [← hsame] at hnear
    exact (near n f hfits).trans hnear

/-! Two neighbours, the lower one with an even mantissa. -/

theorem Fits.le_or_ge (h : Fits m e) (hlead : 2 ^ 52 ≤ p) :
    magnitude m e ≤ magnitude p u ∨ magnitude (p + 1) u ≤ magnitude m e := by
  have hpos := zpow_two_pos u
  by_cases hue : u ≤ e
  · obtain ⟨d, rfl⟩ := Int.le.dest hue
    rw [magnitude_mul_pow, magnitude, magnitude, magnitude]
    rcases Nat.lt_or_ge p (m * 2 ^ d) with hlt | hge
    · exact .inr (mul_le_mul_of_nonneg_right (by exact_mod_cast hlt) hpos.le)
    · exact .inl (mul_le_mul_of_nonneg_right (by exact_mod_cast hge) hpos.le)
  · refine .inl ?_
    have hm : (m : ℚ) ≤ 2 ^ 53 := by exact_mod_cast h.lt.le
    have hp : (2 : ℚ) ^ 52 ≤ p := by exact_mod_cast hlead
    calc magnitude m e ≤ 2 ^ 53 * 2 ^ e := mul_le_mul_of_nonneg_right hm (zpow_two_pos e).le
      _ ≤ 2 ^ 53 * 2 ^ (u - 1) :=
          mul_le_mul_of_nonneg_left (zpow_two_le (by omega)) (by norm_num)
      _ = 2 ^ 52 * 2 ^ u := by
          have hhalf : (2 : ℚ) ^ u = 2 * 2 ^ (u - 1) := by
            rw [← zpow_one_add₀ two_ne_zero]
            congr 1
            omega
          rw [hhalf]
          ring
      _ ≤ magnitude p u := mul_le_mul_of_nonneg_right hp hpos.le

theorem Fits.odd (h : Fits m e) (hlead : 2 ^ 52 ≤ p) (heven : p % 2 = 0)
    (hsame : magnitude m e = magnitude (p + 1) u) : m % 2 = 1 := by
  have hcancel {a b : Nat} {v : Int} (hab : magnitude a v = magnitude b v) : a = b := by
    exact_mod_cast mul_right_cancel₀ (zpow_two_pos v).ne' hab
  rcases le_or_gt u e with hue | hue
  · obtain ⟨d, rfl⟩ := Int.le.dest hue
    rw [magnitude_mul_pow] at hsame
    have hm := hcancel hsame
    cases d with
    | zero => omega
    | succ d =>
      rw [pow_succ, ← mul_assoc] at hm
      omega
  · obtain ⟨d, rfl⟩ := Int.le.dest hue.le
    rw [magnitude_mul_pow] at hsame
    have hm := hcancel hsame
    have hlt := h.lt
    obtain ⟨d, rfl⟩ := Nat.exists_eq_succ_of_ne_zero (n := d) (by rintro rfl; omega)
    rw [pow_succ, ← mul_assoc] at hm
    have hpow := Nat.le_mul_of_pos_right (p + 1) (Nat.two_pow_pos d)
    omega

/-- A number is rounded to the lower neighbour, or to a float below it, up to the middle. -/
theorem NearestTo.le_iff (h : NearestTo x (.finite false m e)) (hp : Fits p u)
    (hnext : Fits (p + 1) u) (hlead : 2 ^ 52 ≤ p) (heven : p % 2 = 0) :
    magnitude m e ≤ magnitude p u ↔ x ≤ (p + 1 / 2) * 2 ^ u := by
  have hpos := zpow_two_pos u
  have hstep : magnitude (p + 1) u = magnitude p u + 2 ^ u := by
    rw [magnitude, magnitude]
    push_cast
    ring
  have hmiddle : (p + 1 / 2) * 2 ^ u = magnitude p u + 2 ^ u / 2 := by
    rw [magnitude]
    ring
  rw [hmiddle]
  cases h with
  | finite canonical _ near even =>
    have hbelow := near p u hp
    have habove := near (p + 1) u hnext
    have htie := even p u hp
    have hside := canonical.toFits.le_or_ge (u := u) hlead
    have hodd := canonical.toFits.odd (u := u) hlead heven
    rw [hstep] at habove hside hodd
    generalize magnitude m e = b at *
    generalize magnitude p u = a at *
    generalize (2 : ℚ) ^ u = d at *
    constructor
    · intro hle
      by_contra hx
      rw [abs_of_pos (by linarith : 0 < x - b)] at habove
      rcases abs_cases (x - (a + d)) with ⟨habs, -⟩ | ⟨habs, -⟩ <;> linarith
    · intro hx
      refine hside.resolve_right fun hge => ?_
      rw [abs_of_neg (by linarith : x - b < 0)] at hbelow htie
      rcases abs_cases (x - a) with ⟨habs, -⟩ | ⟨habs, -⟩
      · -- only the middle is as far from both, and there the odd mantissa gives way
        have hb : b = a + d := by linarith
        rcases htie (by linarith) with hsame | hm
        · linarith
        · have := hodd hb
          omega
      · linarith

end Binary64
end Quizdown
