import Quizdown.Proofs.Decimal.Rounding

/-! The float nearest to a number. A quotient is scaled by a power of two so that the nearest
natural number is the mantissa of a float, and no float is nearer to the quotient than that one. -/
set_option autoImplicit false

namespace Quizdown
namespace Binary64

structure Fits (mantissa : Nat) (exponent : Int) : Prop where
  lt : mantissa < 2 ^ 53
  least : -1074 ≤ exponent
  greatest : exponent ≤ 971

/-- Mantissa and exponent of a finite float: the exponent is as small as it can be. -/
structure Canonical (mantissa : Nat) (exponent : Int) : Prop extends Fits mantissa exponent where
  leading : exponent = -1074 ∨ 2 ^ 52 ≤ mantissa

def limit : ℚ := (2 ^ 53 - 1 / 2) * 2 ^ (971 : Int)

/-- The float nearest to a number that is not negative; of two that are equally near, the one with
the even mantissa. -/
inductive NearestTo (x : ℚ) : Binary64 → Prop
  | finite {m : Nat} {e : Int} (canonical : Canonical m e) (below : x < limit)
      (near : ∀ n f, Fits n f → |x - magnitude m e| ≤ |x - magnitude n f|)
      (even : ∀ n f, Fits n f → |x - magnitude m e| = |x - magnitude n f| →
        magnitude n f = magnitude m e ∨ m % 2 = 0) : NearestTo x (.finite false m e)
  | infinite (beyond : limit ≤ x) : NearestTo x (.infinite false)

variable {x : ℚ} {u : Int} {k : Nat}

theorem zpow_two_pos (e : Int) : (0 : ℚ) < 2 ^ e := by positivity

theorem zpow_two_add (d e : Int) : (2 : ℚ) ^ (d + e) = 2 ^ d * 2 ^ e := zpow_add₀ two_ne_zero d e

theorem zpow_two_le {d e : Int} (h : d ≤ e) : (2 : ℚ) ^ d ≤ 2 ^ e :=
  zpow_le_zpow_right₀ one_le_two h

theorem magnitude_mul_pow (n : Nat) (u : Int) (d : Nat) :
    magnitude n (u + d) = magnitude (n * 2 ^ d) u := by
  rw [magnitude, magnitude, zpow_two_add, zpow_natCast]
  push_cast
  ring

theorem exists_fits {n : Nat} (hk : n ≤ 2 ^ 53) (hleast : -1074 ≤ u) (hgreatest : u ≤ 970) :
    ∃ m e, Fits m e ∧ magnitude m e = magnitude n u := by
  rcases hk.lt_or_eq with hlt | rfl
  · exact ⟨n, u, ⟨hlt, hleast, by omega⟩, rfl⟩
  · exact ⟨2 ^ 52, u + 1, ⟨by norm_num, by omega, by omega⟩, magnitude_mul_pow (2 ^ 52) u 1⟩

/-! Rounding to multiples of a power of two. -/

/-- `k` is the number of units nearest to `x`, and the unit is the power of two that makes the
number of units a mantissa. -/
structure Rounded (x : ℚ) (u : Int) (k : Nat) : Prop where
  least : -1074 ≤ u
  lower : u = -1074 ∨ 2 ^ (u + 52) ≤ x
  upper : x < 2 ^ (u + 53)
  rounds : RoundsTo (x / 2 ^ u) k

namespace Rounded

theorem le (h : Rounded x u k) : k ≤ 2 ^ 53 := by
  refine h.rounds.mono (.self _) ?_
  have hupper := h.upper
  rw [zpow_two_add, mul_comm] at hupper
  rw [div_le_iff₀ (zpow_two_pos u)]
  exact_mod_cast hupper.le

theorem leading (h : Rounded x u k) : u = -1074 ∨ 2 ^ 52 ≤ k := by
  refine h.lower.imp_right fun hlower => RoundsTo.mono (.self _) h.rounds ?_
  rw [zpow_two_add, mul_comm] at hlower
  rw [le_div_iff₀ (zpow_two_pos u)]
  exact_mod_cast hlower

theorem distance (u : Int) (x y : ℚ) : |x / 2 ^ u - y| * 2 ^ u = |x - y * 2 ^ u| := by
  have hpos := zpow_two_pos u
  have hscale : x - y * 2 ^ u = (x / 2 ^ u - y) * 2 ^ u := by
    rw [sub_mul, div_mul_cancel₀ x hpos.ne']
  rw [hscale, abs_mul, abs_of_pos hpos]

theorem nearest_multiple (h : Rounded x u k) (l : Nat) :
    |x - magnitude k u| ≤ |x - magnitude l u| ∧
      (|x - magnitude k u| = |x - magnitude l u| → l = k ∨ k % 2 = 0) := by
  obtain ⟨hnear, heven⟩ := h.rounds.nearest l
  have hpos := zpow_two_pos u
  rw [magnitude, magnitude, ← distance, ← distance]
  exact ⟨mul_le_mul_of_nonneg_right hnear hpos.le, fun heq => heven (mul_right_cancel₀ hpos.ne' heq)⟩

theorem nearest (h : Rounded x u k) {n : Nat} {f : Int} (hn : Fits n f) :
    |x - magnitude k u| ≤ |x - magnitude n f| ∧
      (|x - magnitude k u| = |x - magnitude n f| →
        magnitude n f = magnitude k u ∨ k % 2 = 0) := by
  by_cases huf : u ≤ f
  · obtain ⟨d, rfl⟩ := Int.le.dest huf
    obtain ⟨hnear, heven⟩ := h.nearest_multiple (n * 2 ^ d)
    rw [magnitude_mul_pow]
    exact ⟨hnear, fun heq => (heven heq).imp_left fun hsame => by rw [hsame]⟩
  · have hlower : 2 ^ (u + 52) ≤ x := h.lower.resolve_left (by have := hn.least; omega)
    have hbelow : magnitude n f < 2 ^ (u + 52) := by
      have hpow : (2 : ℚ) ^ 53 * 2 ^ f ≤ 2 ^ (u + 52) := by
        rw [← zpow_natCast, ← zpow_two_add]
        exact zpow_two_le (by push_cast; omega)
      have hlt : (n : ℚ) < 2 ^ 53 := by exact_mod_cast hn.lt
      exact (mul_lt_mul_of_pos_right hlt (zpow_two_pos f)).trans_le hpow
    have hfirst : magnitude (2 ^ 52) u = 2 ^ (u + 52) := by
      rw [magnitude, zpow_two_add, mul_comm]
      norm_num
    have hnear := (h.nearest_multiple (2 ^ 52)).1
    rw [hfirst, abs_of_nonneg (sub_nonneg.mpr hlower)] at hnear
    have hstrict : |x - magnitude k u| < |x - magnitude n f| := by
      rw [abs_of_pos (by linarith : 0 < x - magnitude n f)]
      linarith
    exact ⟨hstrict.le, fun heq => absurd heq hstrict.ne⟩

end Rounded

/-! The bits of a float. -/

theorem twoTo_52 : twoTo 52 = 4503599627370496 := rfl

theorem ofBits_fields {bits field fraction : Nat} (hbits : bits = field * twoTo 52 + fraction)
    (hfield : field < 2048) (hfraction : fraction < twoTo 52) :
    bits / twoTo 63 % 2 = 0 ∧ bits / twoTo 52 % twoTo 11 = field ∧ bits % twoTo 52 = fraction := by
  have hsign : twoTo 63 = 9223372036854775808 := rfl
  have hexponents : twoTo 11 = 2048 := rfl
  rw [twoTo_52] at hbits hfraction
  rw [twoTo_52, hsign, hexponents]
  omega

theorem ofBits_subnormal (hk : k < twoTo 52) : ofBits k = .finite false k (-1074) := by
  have hbits : k = 0 * twoTo 52 + k := by omega
  obtain ⟨hsign, hfield, hfraction⟩ := ofBits_fields hbits (by omega) hk
  simp [ofBits, hsign, hfield, hfraction]

theorem ofBits_normal {f : Nat} (hf : f < 2046) (hlow : twoTo 52 ≤ k) (hhigh : k < 2 * twoTo 52) :
    ofBits (f * twoTo 52 + k) = .finite false k (f - 1074) := by
  have hbits : f * twoTo 52 + k = (f + 1) * twoTo 52 + (k - twoTo 52) := by
    rw [Nat.add_mul, Nat.one_mul]
    omega
  obtain ⟨hsign, hfield, hfraction⟩ := ofBits_fields hbits (by omega) (by omega)
  have hlast : f + 1 ≠ 2047 := by omega
  have hexponent : (f : Int) + 1 - 1075 = f - 1074 := by omega
  have hmantissa : k - twoTo 52 + twoTo 52 = k := by omega
  simp [ofBits, hsign, hfield, hfraction, hlast, hexponent, hmantissa]

/-- A mantissa that was rounded up to a power of two makes the exponent greater by one. -/
theorem ofBits_carry {f : Nat} (hf : f < 2045) :
    ofBits (f * twoTo 52 + 2 * twoTo 52) = .finite false (twoTo 52) (f - 1073) := by
  have hbits : f * twoTo 52 + 2 * twoTo 52 = (f + 1) * twoTo 52 + twoTo 52 := by
    rw [twoTo_52]
    omega
  have hexponent : ((f + 1 : Nat) : Int) - 1074 = f - 1073 := by omega
  rw [hbits, ofBits_normal (by omega) le_rfl (by rw [twoTo_52]; norm_num), hexponent]

theorem zpow_lt_limit {e : Int} (h : e ≤ 1023) : (2 : ℚ) ^ e < limit := by
  have htop : (2 : ℚ) ^ (52 + 971 : Int) < limit := by
    rw [zpow_two_add]
    exact mul_lt_mul_of_pos_right (by norm_num) (zpow_two_pos 971)
  exact (zpow_two_le h).trans_lt htop

theorem limit_le_zpow {e : Int} (h : 1024 ≤ e) : limit ≤ 2 ^ e := by
  have htop : limit ≤ 2 ^ (53 + 971 : Int) := by
    rw [zpow_two_add]
    exact mul_le_mul_of_nonneg_right (by norm_num) (zpow_two_pos 971).le
  exact htop.trans (zpow_two_le h)

namespace Rounded

def bits (u : Int) (k : Nat) : Nat := (u + 1074).toNat * twoTo 52 + k

theorem bits_lt_iff (h : Rounded x u k) : bits u k < 2047 * twoTo 52 ↔ x < limit := by
  have hle : k ≤ 2 * twoTo 52 := h.le
  have hlead : u = -1074 ∨ twoTo 52 ≤ k := h.leading
  have hleast := h.least
  have hupper := h.upper
  have hunit : u ≤ 970 ∨ u = 971 ∨ 972 ≤ u := by omega
  rw [bits]
  rcases hunit with hsmall | rfl | hlarge
  · exact iff_of_true (by rw [twoTo_52] at *; omega)
      (hupper.trans (zpow_lt_limit (by omega)))
  · -- at the greatest exponent the mantissa decides, and the limit is halfway to a carry
    have hmantissa : (971 + 1074 : Int).toNat * twoTo 52 + k < 2047 * twoTo 52 ↔
        k < 2 * twoTo 52 := by
      rw [twoTo_52]
      omega
    have hlimit : x < limit ↔ x / 2 ^ (971 : Int) < 2 ^ 53 - 1 / 2 := by
      rw [limit, div_lt_iff₀ (zpow_two_pos 971)]
    have hcarry : RoundsTo (2 ^ 53 - 1 / 2) (2 * twoTo 52) := by
      rw [twoTo_52]
      constructor <;> norm_num
    have hrounds := h.rounds
    rw [hmantissa, hlimit]
    generalize x / 2 ^ (971 : Int) = y at *
    constructor
    · intro hk
      by_contra hbeyond
      exact absurd (hcarry.mono hrounds (not_lt.mp hbeyond)) (not_le.mpr hk)
    · intro hy
      refine lt_of_le_of_ne hle fun hk => ?_
      have hbounds := hrounds.bounds.1
      rw [hk, twoTo_52] at hbounds
      norm_num at hbounds hy
      linarith
  · have hlower : 2 ^ (u + 52) ≤ x := h.lower.resolve_left (by omega)
    have hlimit : limit ≤ x := (limit_le_zpow (by omega)).trans hlower
    exact iff_of_false (by rw [twoTo_52] at *; omega) (not_lt.mpr hlimit)

theorem ofBits_bits (h : Rounded x u k) (hlt : bits u k < 2047 * twoTo 52) :
    ∃ m e, ofBits (bits u k) = .finite false m e ∧ Canonical m e ∧
      magnitude m e = magnitude k u ∧ (k % 2 = 0 → m % 2 = 0) := by
  obtain ⟨f, rfl⟩ : ∃ f : Nat, u = f - 1074 := ⟨(u + 1074).toNat, by have := h.least; omega⟩
  have hfield : ((f : Int) - 1074 + 1074).toNat = f := by omega
  have hle : k ≤ 2 * twoTo 52 := h.le
  have hlead : f = 0 ∨ twoTo 52 ≤ k := h.leading.imp_left (by omega)
  rw [bits, hfield] at hlt ⊢
  rcases lt_or_ge k (twoTo 52) with hlow | hlow
  · obtain rfl : f = 0 := by omega
    refine ⟨k, -1074, ?_, ⟨⟨by rw [twoTo_52] at hlow; omega, by omega, by omega⟩, .inl rfl⟩, rfl,
      id⟩
    rw [Nat.zero_mul, Nat.zero_add]
    exact ofBits_subnormal hlow
  rcases hle.lt_or_eq with hhigh | rfl
  · have hf : f < 2046 := by rw [twoTo_52] at *; omega
    exact ⟨k, _, ofBits_normal hf hlow hhigh, ⟨⟨hhigh, by omega, by omega⟩, .inr hlow⟩, rfl, id⟩
  · have hf : f < 2045 := by rw [twoTo_52] at *; omega
    refine ⟨twoTo 52, _, ofBits_carry hf, ⟨⟨by decide, by omega, by omega⟩, .inr le_rfl⟩, ?_,
      fun _ => rfl⟩
    have hexponent : (f : Int) - 1073 = f - 1074 + (1 : Nat) := by omega
    rw [hexponent, magnitude_mul_pow, pow_one, mul_comm]

theorem nearestTo (h : Rounded x u k) : NearestTo x
    (ofBits (if bits u k < 2047 * twoTo 52 then bits u k else 2047 * twoTo 52)) := by
  split_ifs with hlt
  · obtain ⟨m, e, hbits, hm, hsame, heven⟩ := h.ofBits_bits hlt
    rw [hbits]
    refine .finite hm (h.bits_lt_iff.mp hlt) (fun n f hn => ?_) (fun n f hn heq => ?_)
    · rw [hsame]
      exact (h.nearest hn).1
    · rw [hsame] at heq ⊢
      exact ((h.nearest hn).2 heq).imp_right heven
  · have hinfinite : ofBits (2047 * twoTo 52) = .infinite false := by decide
    rw [hinfinite]
    exact .infinite (not_lt.mp fun hx => hlt (h.bits_lt_iff.mpr hx))

end Rounded

/-! The unit of a quotient. -/

def scaled (num den : Nat) (e : Int) : Nat × Nat :=
  if 0 ≤ e then (num, den * twoTo e.toNat) else (num * twoTo (-e).toNat, den)

def top (num den : Nat) : Int :=
  let guess : Int := (num.log2 : Int) - den.log2
  if (scaled num den guess).1 < (scaled num den guess).2 then guess - 1 else guess

def unit (num den : Nat) : Int := max (top num den - 52) (-1074)

def mantissa (num den : Nat) : Nat :=
  roundDiv (scaled num den (unit num den)).1 (scaled num den (unit num den)).2

variable {num den : Nat}

theorem nearestBits_eq (hnum : num ≠ 0) : nearestBits num den =
    if Rounded.bits (unit num den) (mantissa num den) < 2047 * twoTo 52
      then Rounded.bits (unit num den) (mantissa num den) else 2047 * twoTo 52 := by
  rw [nearestBits, if_neg hnum]
  rfl

theorem scaled_eq (num : Nat) (hden : 0 < den) (e : Int) : 0 < (scaled num den e).2 ∧
    ((scaled num den e).1 : ℚ) / (scaled num den e).2 = num / den / 2 ^ e := by
  have hpos : (den : ℚ) ≠ 0 := by exact_mod_cast hden.ne'
  have htwo (n : Nat) : 0 < twoTo n := Nat.pow_pos two_pos
  have hcast (n : Nat) : (twoTo n : ℚ) = 2 ^ n := by simp [twoTo]
  unfold scaled
  split_ifs with he
  · obtain ⟨n, rfl⟩ := Int.eq_ofNat_of_zero_le he
    refine ⟨Nat.mul_pos hden (htwo _), ?_⟩
    simp [hcast, div_div]
  · obtain ⟨n, rfl⟩ : ∃ n : Nat, e = -n := ⟨e.natAbs, by omega⟩
    have hexponent : (- -(n : Int)).toNat = n := by omega
    refine ⟨hden, ?_⟩
    rw [hexponent, Nat.cast_mul, hcast, zpow_neg, zpow_natCast]
    field_simp

theorem top_bounds (hnum : num ≠ 0) (hden : 0 < den) :
    (2 : ℚ) ^ top num den ≤ num / den ∧ (num : ℚ) / den < 2 ^ (top num den + 1) := by
  have hpos : (0 : ℚ) < den := by exact_mod_cast hden
  have hlog {n : Nat} (hn : n ≠ 0) :
      (2 : ℚ) ^ (n.log2 : Int) ≤ n ∧ (n : ℚ) < 2 ^ ((n.log2 : Int) + 1) := by
    constructor
    · exact_mod_cast Nat.log2_self_le hn
    · exact_mod_cast Nat.lt_log2_self (n := n)
  obtain ⟨hnumLow, hnumHigh⟩ := hlog hnum
  obtain ⟨hdenLow, hdenHigh⟩ := hlog hden.ne'
  obtain ⟨hscaledPos, hscaled⟩ := scaled_eq num hden ((num.log2 : Int) - den.log2)
  have hbelow : (scaled num den ((num.log2 : Int) - den.log2)).1 <
      (scaled num den ((num.log2 : Int) - den.log2)).2 ↔
      (num : ℚ) / den < 2 ^ ((num.log2 : Int) - den.log2) := by
    rw [← div_lt_one (zpow_two_pos _), ← hscaled, div_lt_one (by exact_mod_cast hscaledPos)]
    exact_mod_cast Iff.rfl
  unfold top
  dsimp only
  split_ifs with h
  · refine ⟨?_, by rw [sub_add_cancel]; exact hbelow.mp h⟩
    rw [le_div_iff₀ hpos]
    calc (2 : ℚ) ^ ((num.log2 : Int) - den.log2 - 1) * den
        ≤ 2 ^ ((num.log2 : Int) - den.log2 - 1) * 2 ^ ((den.log2 : Int) + 1) :=
          mul_le_mul_of_nonneg_left hdenHigh.le (zpow_two_pos _).le
      _ = 2 ^ (num.log2 : Int) := by
          rw [← zpow_two_add]
          congr 1
          omega
      _ ≤ num := hnumLow
  · refine ⟨not_lt.mp fun hlt => h (hbelow.mpr hlt), ?_⟩
    rw [div_lt_iff₀ hpos]
    calc (num : ℚ) < 2 ^ ((num.log2 : Int) + 1) := hnumHigh
      _ = 2 ^ ((num.log2 : Int) - den.log2 + 1) * 2 ^ (den.log2 : Int) := by
          rw [← zpow_two_add]
          congr 1
          omega
      _ ≤ 2 ^ ((num.log2 : Int) - den.log2 + 1) * den :=
          mul_le_mul_of_nonneg_left hdenLow (zpow_two_pos _).le

theorem rounded_quotient (hnum : num ≠ 0) (hden : 0 < den) :
    Rounded (num / den) (unit num den) (mantissa num den) := by
  obtain ⟨hlow, hhigh⟩ := top_bounds hnum hden
  obtain ⟨hpos, hscaled⟩ := scaled_eq num hden (unit num den)
  refine ⟨le_max_right _ _, ?_, hhigh.trans_le (zpow_two_le ?_), ?_⟩
  · rcases le_total (top num den - 52) (-1074) with h | h
    · exact .inl (max_eq_right h)
    · rw [unit, max_eq_left h, sub_add_cancel]
      exact .inr hlow
  · rw [unit]
    omega
  · rw [← hscaled]
    exact roundsTo_roundDiv hpos

theorem canonical_zero : Canonical 0 (-1074) := ⟨⟨by norm_num, by omega, by omega⟩, .inl rfl⟩

theorem nearestTo_zero : NearestTo 0 (.finite false 0 (-1074)) := by
  have hlimit : (0 : ℚ) < limit := (zpow_two_pos 0).trans (zpow_lt_limit (by omega))
  refine .finite canonical_zero hlimit (fun n f _ => ?_) fun _ _ _ _ => .inr rfl
  rw [magnitude_zero, sub_self, abs_zero]
  exact abs_nonneg _

/-- The bits that are made for a quotient are those of the float nearest to it. -/
theorem nearestTo_nearestBits (num : Nat) (hden : 0 < den) :
    NearestTo (num / den) (ofBits (nearestBits num den)) := by
  by_cases hnum : num = 0
  · subst hnum
    have hbits : ofBits (nearestBits 0 den) = .finite false 0 (-1074) := by
      rw [nearestBits, if_pos rfl]
      decide
    rw [Nat.cast_zero, zero_div, hbits]
    exact nearestTo_zero
  · rw [nearestBits_eq hnum]
    exact (rounded_quotient hnum hden).nearestTo

theorem nearestBits_le (num den : Nat) : nearestBits num den ≤ 2047 * twoTo 52 := by
  by_cases hnum : num = 0
  · rw [nearestBits, if_pos hnum]
    exact Nat.zero_le _
  · rw [nearestBits_eq hnum]
    split_ifs with hlt
    · exact hlt.le
    · exact le_rfl

end Binary64
end Quizdown
