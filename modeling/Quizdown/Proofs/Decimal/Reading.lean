import Quizdown.Proofs.Decimal.Bits

/-! The float that a decimal number is read as: the one nearest to it. Numbers far outside the range
of floats are read without computing their power of ten, and come out the same. -/
set_option autoImplicit false

namespace Quizdown
namespace Binary64

theorem ofFloat_nearest (num den : Nat) :
    ofFloat (nearest num den) = ofBits (nearestBits num den) := by
  have hle := nearestBits_le num den
  have hword : (nearestBits num den).toUInt64.toNat = nearestBits num den := by
    change nearestBits num den % 2 ^ 64 = nearestBits num den
    rw [twoTo_52] at hle
    omega
  rw [nearest, ofFloat_ofBits, hword]

theorem nearestTo_nearest (num : Nat) {den : Nat} (hden : 0 < den) :
    NearestTo (num / den) (ofFloat (nearest num den)) := by
  rw [ofFloat_nearest]
  exact nearestTo_nearestBits num hden

theorem ofFloat_eq_zero_iff {x : Float} : ofFloat x = .finite false 0 (-1074) ↔ x = 0.0 := by
  constructor
  · intro h
    have hlt : x.toBits.toNat < 2 ^ 64 := x.toBits.toNat_lt
    have hsign : twoTo 63 = 9223372036854775808 := rfl
    have hexponents : twoTo 11 = 2048 := rfl
    have hbits : x.toBits.toNat = 0 := by
      rw [ofFloat, ofBits, twoTo_52, hsign, hexponents] at h
      generalize x.toBits.toNat = bits at *
      split_ifs at h with hlast hinfinite hfirst
      · simp only [finite.injEq, beq_eq_false_iff_ne, ne_eq] at h
        omega
      · simp only [finite.injEq] at h
        omega
    have hzero : x.toBits = (0.0 : Float).toBits := UInt64.toNat_inj.mp hbits
    rcases x with ⟨⟨word, hvalid⟩⟩
    obtain rfl : word = (0.0 : Float).toBits := hzero
    rfl
  · rintro rfl
    decide

theorem eq_infinite_of_limit_le {x : ℚ} {b : Binary64} (h : NearestTo x b) (hx : limit ≤ x) :
    b = .infinite false := by
  cases h with
  | finite _ below => exact absurd hx (not_le.mpr below)
  | infinite _ => rfl

theorem zpow_two_smallest : (2 : ℚ) ^ (-1074 : Int) = 2 * 2 ^ (-1075 : Int) := by
  rw [← zpow_one_add₀ two_ne_zero]
  rfl

/-- Up to half of the smallest float a number is nearest to zero. -/
theorem nearestTo_zero_of_le {x : ℚ} (hx : 0 ≤ x) (hle : x ≤ 2 ^ (-1075 : Int)) :
    NearestTo x (.finite false 0 (-1074)) := by
  have hhalf : x / 2 ^ (-1074 : Int) ≤ 1 / 2 := by
    rw [div_le_iff₀ (zpow_two_pos _), zpow_two_smallest]
    linarith
  have hrounds : RoundsTo (x / 2 ^ (-1074 : Int)) 0 := by
    have hnonneg : 0 ≤ x / 2 ^ (-1074 : Int) := div_nonneg hx (zpow_two_pos _).le
    refine ⟨?_, fun _ => rfl⟩
    rw [Nat.cast_zero, sub_zero, abs_of_nonneg hnonneg]
    exact hhalf
  have hupper : x < 2 ^ (-1074 + 53 : Int) :=
    hle.trans_lt (zpow_lt_zpow_right₀ one_lt_two (by norm_num))
  have hrounded : Rounded x (-1074) 0 := ⟨le_rfl, .inl rfl, hupper, hrounds⟩
  exact hrounded.nearestTo

theorem le_of_nearestTo_zero {x : ℚ} {e : Int} (h : NearestTo x (.finite false 0 e)) :
    x ≤ 2 ^ (-1075 : Int) := by
  cases h with
  | finite _ _ near _ =>
    have hone := near 1 (-1074) ⟨by norm_num, le_rfl, by norm_num⟩
    have hpos := zpow_two_pos (-1075)
    rw [magnitude_zero, sub_zero, magnitude, Nat.cast_one, one_mul, zpow_two_smallest] at hone
    generalize (2 : ℚ) ^ (-1075 : Int) = small at *
    by_contra hlarge
    have hx : 0 < x := by linarith
    rw [abs_of_pos hx] at hone
    rcases abs_cases (x - 2 * small) with ⟨heq, -⟩ | ⟨heq, -⟩ <;> linarith

theorem NearestTo.eq_zero {x : ℚ} {b : Binary64} (h : NearestTo x b) (hx : 0 ≤ x)
    (hle : x ≤ 2 ^ (-1075 : Int)) : b = .finite false 0 (-1074) := by
  cases h with
  | @finite m e canonical _ near even =>
    have hsmallest : (2 : ℚ) ^ (-1074 : Int) ≤ 2 ^ e := zpow_two_le canonical.least
    have hnear := near 0 (-1074) ⟨by norm_num, le_rfl, by norm_num⟩
    have heven := even 0 (-1074) ⟨by norm_num, le_rfl, by norm_num⟩
    rw [magnitude_zero, sub_zero, abs_of_nonneg hx] at hnear heven
    have hm : m = 0 := by
      by_contra hm
      have hunit : (m : ℚ) * 2 ^ (-1074 : Int) ≤ magnitude m e :=
        mul_le_mul_of_nonneg_left hsmallest (Nat.cast_nonneg m)
      have hpos := zpow_two_pos (-1074)
      have hhalf := zpow_two_smallest
      have hone : (1 : ℚ) ≤ m := by exact_mod_cast Nat.pos_of_ne_zero hm
      have hbound := (abs_le.mp hnear).1
      -- only the smallest float is as near as zero, and its mantissa is odd
      have htwo : (m : ℚ) < 2 := by nlinarith
      obtain rfl : m = 1 := by
        have : m < 2 := by exact_mod_cast htwo
        omega
      rw [Nat.cast_one, one_mul] at hunit
      have htie : |x - magnitude 1 e| = x := by
        rw [abs_sub_comm, abs_of_nonneg] <;> linarith
      rcases heven htie with hsame | hodd
      · linarith
      · omega
    subst hm
    rcases canonical.leading with rfl | hleading
    · rfl
    · omega
  | infinite beyond =>
    have hlimit : (2 : ℚ) ^ (-1075 : Int) < limit := zpow_lt_limit (by norm_num)
    exact absurd (beyond.trans hle) (not_le.mpr hlimit)

/-! Digits and a power of ten. -/

theorem zpow_ten_pos (e : Int) : (0 : ℚ) < 10 ^ e := by positivity

theorem zpow_ten_large {e : Int} (h : 401 ≤ e) : (2 : ℚ) ^ (1203 : Nat) ≤ 10 ^ e := by
  have hpower : (2 : ℚ) ^ (1203 : Nat) ≤ 10 ^ (401 : Nat) := by
    have hcube : (2 : ℚ) ^ (1203 : Nat) = 8 ^ (401 : Nat) := by
      rw [show 1203 = 3 * 401 from rfl, pow_mul]
      norm_num
    rw [hcube]
    exact pow_le_pow_left₀ (by norm_num) (by norm_num) _
  refine hpower.trans ?_
  rw [← zpow_natCast]
  exact zpow_le_zpow_right₀ (by norm_num) h

theorem lt_zpow_ten_log2 (digits : Nat) :
    (digits : ℚ) < 10 ^ ((digits.log2 / 3 + 1 : Nat) : Int) := by
  have hnat : digits < 10 ^ (digits.log2 / 3 + 1) :=
    calc digits < 2 ^ (digits.log2 + 1) := Nat.lt_log2_self
      _ ≤ 2 ^ (3 * (digits.log2 / 3 + 1)) := Nat.pow_le_pow_right two_pos (by omega)
      _ = 8 ^ (digits.log2 / 3 + 1) := by
          rw [pow_mul]
          rfl
      _ ≤ 10 ^ (digits.log2 / 3 + 1) := Nat.pow_le_pow_left (by norm_num) _
  rw [zpow_natCast]
  exact_mod_cast hnat

/-- What is read for digits and a power of ten is the float nearest to the number. -/
theorem nearestTo_ofDecimal (digits : Nat) (exponent : Int) :
    NearestTo (digits * 10 ^ exponent) (ofFloat (ofDecimal digits exponent)) := by
  have hten (n : Nat) : (tenTo n : ℚ) = 10 ^ n := by simp [tenTo]
  have htwo (n : Nat) : (twoTo n : ℚ) = 2 ^ (n : Int) := by simp [twoTo]
  unfold ofDecimal
  split_ifs with hzero hlarge hsmall hwhole
  · rw [hzero, Nat.cast_zero, zero_mul, ofFloat_eq_zero_iff.mpr rfl]
    exact nearestTo_zero
  · -- the power alone is beyond the floats
    have hdigits : (1 : ℚ) ≤ digits := by exact_mod_cast Nat.pos_of_ne_zero hzero
    have hbeyond : limit ≤ digits * 10 ^ exponent :=
      calc limit ≤ 2 ^ (1203 : Int) := limit_le_zpow (by norm_num)
        _ ≤ 10 ^ exponent := by exact_mod_cast zpow_ten_large (by omega)
        _ ≤ digits * 10 ^ exponent := le_mul_of_one_le_left (zpow_ten_pos _).le hdigits
    have hinfinite : ofFloat (nearest (twoTo 1024) 1) = .infinite false := by
      refine eq_infinite_of_limit_le (nearestTo_nearest (twoTo 1024) one_pos) ?_
      rw [Nat.cast_one, div_one, htwo]
      exact limit_le_zpow le_rfl
    rw [hinfinite]
    exact .infinite hbeyond
  · -- the number lies below half of the smallest float
    rw [ofFloat_eq_zero_iff.mpr rfl]
    refine nearestTo_zero_of_le (mul_nonneg (Nat.cast_nonneg _) (zpow_ten_pos _).le) ?_
    calc digits * (10 : ℚ) ^ exponent
        ≤ 10 ^ ((digits.log2 / 3 + 1 : Nat) : Int) * 10 ^ exponent :=
          mul_le_mul_of_nonneg_right (lt_zpow_ten_log2 digits).le (zpow_ten_pos _).le
      _ = 10 ^ (exponent + (digits.log2 / 3 + 1 : Nat)) := by
          rw [← zpow_add₀ (by norm_num), add_comm]
      _ ≤ 2 ^ (-1203 : Int) := by
          have hinverse := inv_anti₀ (by positivity)
            (zpow_ten_large (e := -(exponent + (digits.log2 / 3 + 1 : Nat))) (by omega))
          rw [zpow_neg, inv_inv] at hinverse
          rw [zpow_neg]
          exact_mod_cast hinverse
      _ ≤ 2 ^ (-1075 : Int) := zpow_two_le (by norm_num)
  · obtain ⟨e, rfl⟩ := Int.eq_ofNat_of_zero_le hwhole
    have hquotient := nearestTo_nearest (digits * tenTo e) one_pos
    rw [Nat.cast_one, div_one, Nat.cast_mul, hten, ← zpow_natCast] at hquotient
    exact hquotient
  · obtain ⟨e, rfl⟩ : ∃ e : Nat, exponent = -e := ⟨exponent.natAbs, by omega⟩
    have hpos : 0 < tenTo e := Nat.pow_pos (by norm_num)
    have hquotient := nearestTo_nearest digits hpos
    rw [hten, div_eq_mul_inv, ← zpow_natCast, ← zpow_neg] at hquotient
    have hexponent : (- -(e : Int)).toNat = e := by omega
    rw [hexponent]
    exact hquotient

end Binary64
end Quizdown
