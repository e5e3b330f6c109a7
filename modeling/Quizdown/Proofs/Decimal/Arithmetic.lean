import Quizdown.Proofs.Decimal.Value

/-! Products and quotients of floats. A result is computed as a mantissa with two bits that tell
where the exact number lies behind it, and rounded from these to the float nearest to that number. -/
set_option autoImplicit false

namespace Quizdown
namespace Binary64

open Float.Model (UnpackedFloat Format totalExponent)
open Float.Model.UnpackedFloat (Sign ExtendedMantissa Accuracy accuracyOfFraction divCore
  roundWithAccuracy shiftToTargetExponent)

variable {x y : ℚ} {m n d : Nat} {e f : Int}

/-- The mantissa is the whole part of the number, and the two bits tell on which side of the middle
the rest lies. -/
structure Located (y : ℚ) (em : ExtendedMantissa) : Prop where
  floor : em.mantissa ≤ y
  lt : y < em.mantissa + 1
  roundBit : em.roundBit = true ↔ (em.mantissa : ℚ) + 1 / 2 ≤ y
  stickyBit : em.stickyBit = true ↔ y ≠ em.mantissa ∧ y ≠ em.mantissa + 1 / 2

namespace Located

variable {em : ExtendedMantissa}

theorem exact (m : Nat) : Located m (.ofMantissaAndAccuracy m .exact) where
  floor := le_rfl
  lt := lt_add_one _
  roundBit := by simp [ExtendedMantissa.ofMantissaAndAccuracy]
  stickyBit := by simp [ExtendedMantissa.ofMantissaAndAccuracy]

theorem add {k : Nat} {rest : ℚ} {round sticky : Bool} (hnonneg : 0 ≤ rest) (hlt : rest < 1)
    (hround : round = true ↔ 1 / 2 ≤ rest) (hsticky : sticky = true ↔ rest ≠ 0 ∧ rest ≠ 1 / 2) :
    Located (k + rest) ⟨k, round, sticky⟩ where
  floor := le_add_of_nonneg_right hnonneg
  lt := add_lt_add_right hlt _
  roundBit := hround.trans (add_le_add_iff_left _).symm
  stickyBit := by rw [hsticky, Ne, Ne, Ne, Ne, add_eq_left, add_right_inj]

theorem quotient (n : Nat) (hd : 0 < d) : Located ((n : ℚ) / d)
    (.ofMantissaAndAccuracy (n / d) (accuracyOfFraction (n % d) d)) := by
  have hnonneg : (0 : ℚ) ≤ (n % d : Nat) / (d : ℚ) := by positivity
  have hround : 1 / 2 ≤ (n % d : Nat) / (d : ℚ) ↔ d ≤ 2 * (n % d) := by
    rw [← not_lt, div_lt_half_iff _ hd, not_lt]
  have hsticky : (n % d : Nat) / (d : ℚ) ≠ 0 ∧ (n % d : Nat) / (d : ℚ) ≠ 1 / 2 ↔
      n % d ≠ 0 ∧ 2 * (n % d) ≠ d := by
    rw [Ne, Ne, div_eq_half_iff _ hd, div_eq_zero_iff, Nat.cast_eq_zero, Nat.cast_eq_zero,
      or_iff_left hd.ne']
  rw [div_eq_whole_add_rest n hd]
  have hadd {round sticky : Bool} (hr : round = true ↔ d ≤ 2 * (n % d))
      (hs : sticky = true ↔ n % d ≠ 0 ∧ 2 * (n % d) ≠ d) :=
    @add (n / d) _ round sticky hnonneg (rest_lt_one n hd) (hr.trans hround.symm)
      (hs.trans hsticky.symm)
  unfold accuracyOfFraction
  split_ifs with hr
  · exact hadd (iff_of_false (by decide) (by omega)) (iff_of_false (by decide) (by omega))
  · rcases lt_trichotomy (2 * (n % d)) d with hlt | heq | hgt
    · rw [compare_lt_iff_lt.mpr hlt]
      exact hadd (iff_of_false (by decide) (by omega)) (iff_of_true rfl (by omega))
    · rw [compare_eq_iff_eq.mpr heq]
      exact hadd (iff_of_true rfl (by omega)) (iff_of_false (by decide) (by omega))
    · rw [compare_gt_iff_gt.mpr hgt]
      exact hadd (iff_of_true rfl (by omega)) (iff_of_true rfl (by omega))

theorem shiftRightOne (h : Located y em) : Located (y / 2) em.shiftRightOne := by
  obtain ⟨k, round, sticky⟩ := em
  obtain ⟨hfloor, hlt, hround, hsticky⟩ := h
  dsimp only at hfloor hlt hround hsticky
  have hrest : (round || sticky) = true ↔ y ≠ k := by
    rw [Bool.or_eq_true, hround, hsticky]
    constructor
    · rintro (hhalf | ⟨hne, -⟩) rfl
      · linarith
      · exact hne rfl
    · intro hne
      by_cases hhalf : y = k + 1 / 2
      · exact .inl hhalf.ge
      · exact .inr ⟨hne, hhalf⟩
  have hk : (k : ℚ) = 2 * (k / 2 : Nat) + (k % 2 : Nat) := by
    exact_mod_cast (Nat.div_add_mod k 2).symm
  rw [hk] at hfloor hlt hrest
  rcases Nat.mod_two_eq_zero_or_one k with hbit | hbit
  · rw [hbit, Nat.cast_zero, add_zero] at hfloor hlt hrest
    constructor <;> simp only [ExtendedMantissa.shiftRightOne, hbit, hrest]
    case floor => linarith
    case lt => linarith
    case roundBit => exact iff_of_false (by decide) (by linarith)
    case stickyBit =>
      refine ⟨fun hne => ⟨fun heq => hne (by linarith), fun heq => by linarith⟩, ?_⟩
      rintro ⟨hne, -⟩ rfl
      exact hne (by ring)
  · rw [hbit, Nat.cast_one] at hfloor hlt hrest
    constructor <;> simp only [ExtendedMantissa.shiftRightOne, hbit, hrest]
    case floor => linarith
    case lt => linarith
    case roundBit => exact iff_of_true (by decide) (by linarith)
    case stickyBit =>
      refine ⟨fun hne => ⟨fun heq => by linarith, fun heq => hne (by linarith)⟩, ?_⟩
      rintro ⟨-, hne⟩ rfl
      exact hne (by ring)

theorem shiftRight (h : Located y em) (count : Nat) : Located (y / 2 ^ count) (em >>> count) := by
  induction count with
  | zero =>
    rw [pow_zero, div_one]
    exact h
  | succ count ih =>
    rw [pow_succ, ← div_div]
    exact ih.shiftRightOne

theorem roundsTo (h : Located y em) : RoundsTo y em.roundedMantissa := by
  obtain ⟨k, round, sticky⟩ := em
  obtain ⟨hfloor, hlt, hround, hsticky⟩ := h
  dsimp only at hfloor hlt hround hsticky
  cases round <;> cases sticky <;>
    simp only [Bool.false_eq_true, false_iff, true_iff, not_le, not_and_not_right] at hround hsticky
  · by_cases heq : y = k
    · exact .of_eq heq
    · exact absurd (hsticky heq) hround.ne
  · refine .of_lt ?_
    rw [ExtendedMantissa.roundedMantissa]
    change |y - k| < 1 / 2
    rw [abs_of_nonneg (by linarith)]
    linarith
  · have heq : y = k + 1 / 2 := hsticky (by rintro rfl; linarith)
    change RoundsTo y (k + k % 2)
    rcases Nat.mod_two_eq_zero_or_one k with hbit | hbit <;> rw [hbit]
    · refine ⟨?_, fun _ => hbit⟩
      rw [heq, add_zero, add_sub_cancel_left, abs_of_pos (by norm_num)]
    · refine ⟨?_, fun _ => by omega⟩
      rw [heq, Nat.cast_add, Nat.cast_one, abs_le]
      constructor <;> linarith
  · refine .of_lt ?_
    change |y - (k + 1 : Nat)| < 1 / 2
    have hne : k + 1 / 2 < y := lt_of_le_of_ne hround (Ne.symm hsticky.2)
    rw [Nat.cast_add, Nat.cast_one, abs_lt]
    constructor <;> linarith

end Located

/-! Rounding what is located to a float. -/

/-- A mantissa that is fine enough is cut to the bits that a float has. -/
theorem rounded_shift {accuracy : Accuracy}
    (h : Located (x / 2 ^ e) (.ofMantissaAndAccuracy m accuracy)) (hfine : e ≤ -1074 ∨ 2 ^ 52 ≤ m) :
    Rounded x (shiftToTargetExponent .binary64 m e accuracy).2
      (shiftToTargetExponent .binary64 m e accuracy).1.roundedMantissa := by
  have hmantissa : (ExtendedMantissa.ofMantissaAndAccuracy m accuracy).mantissa = m := by
    rcases accuracy with _ | (_ | _ | _) <;> rfl
  obtain ⟨hfloor, hlt, -, -⟩ := id h
  rw [hmantissa] at hfloor hlt
  have hpos := zpow_two_pos e
  rw [le_div_iff₀ hpos] at hfloor
  rw [div_lt_iff₀ hpos] at hlt
  -- the leading bit of the mantissa tells how many bits are cut off
  obtain ⟨target, htarget⟩ : ∃ t, Format.binary64.targetExponent (totalExponent m e) = t := ⟨_, rfl⟩
  have hmax : target = max (m.log2 + 1 + e - 53) (-1074) := htarget.symm
  have hle : e ≤ target := by
    rcases hfine with hsmall | hlarge
    · omega
    · have hlog := (Nat.le_log2 (by omega : m ≠ 0)).mpr hlarge
      omega
  obtain ⟨count, hcount⟩ := Int.le.dest hle
  have hshift : shiftToTargetExponent .binary64 m e accuracy =
      (ExtendedMantissa.ofMantissaAndAccuracy m accuracy >>> count, target) := by
    have hcut : (target - e).toNat = count := by omega
    simp only [shiftToTargetExponent, UnpackedFloat.shiftToExponent, htarget, hcut, hcount]
  rw [hshift]
  refine ⟨by omega, ?_, ?_, ?_⟩
  · rcases Nat.eq_zero_or_pos m with rfl | hm
    · rw [Nat.log2_zero] at hmax
      exact .inl (by omega)
    · have hlog : (2 : ℚ) ^ (m.log2 : Int) ≤ m := by exact_mod_cast Nat.log2_self_le hm.ne'
      refine or_iff_not_imp_left.mpr fun hne => ?_
      calc (2 : ℚ) ^ (target + 52) = 2 ^ (m.log2 : Int) * 2 ^ e := by
            rw [← zpow_two_add]
            congr 1
            omega
        _ ≤ m * 2 ^ e := mul_le_mul_of_nonneg_right hlog hpos.le
        _ ≤ x := hfloor
  · have hlog : (m : ℚ) + 1 ≤ 2 ^ ((m.log2 : Int) + 1) := by
      exact_mod_cast Nat.lt_log2_self (n := m)
    calc x < (m + 1) * 2 ^ e := hlt
      _ ≤ 2 ^ ((m.log2 : Int) + 1) * 2 ^ e := mul_le_mul_of_nonneg_right hlog hpos.le
      _ = 2 ^ ((m.log2 : Int) + 1 + e) := (zpow_two_add _ _).symm
      _ ≤ 2 ^ (target + 53) := zpow_two_le (by omega)
  · have hrounds := (h.shiftRight count).roundsTo
    rw [div_div, ← zpow_natCast, ← zpow_two_add, hcount] at hrounds
    exact hrounds

/-- A mantissa that was rounded up to a power of two is cut once more. -/
theorem shift_exact {u : Int} {k : Nat} (h : Rounded x u k) :
    (shiftToTargetExponent .binary64 k u .exact).1.mantissa = (if k = 2 ^ 53 then 2 ^ 52 else k) ∧
      (shiftToTargetExponent .binary64 k u .exact).2 = if k = 2 ^ 53 then u + 1 else u := by
  have htarget : Format.binary64.targetExponent (totalExponent k u) =
      max (k.log2 + 1 + u - 53) (-1074) := rfl
  have hleast := h.least
  simp only [shiftToTargetExponent, UnpackedFloat.shiftToExponent, htarget]
  split_ifs with hcarry
  · have hlog : k.log2 = 53 := by rw [hcarry, Nat.log2_two_pow]
    have hcut : (max (k.log2 + 1 + u - 53) (-1074) - u).toNat = 1 := by omega
    rw [hcut, hcarry]
    exact ⟨rfl, rfl⟩
  · have hlog : k.log2 < 53 := by
      rcases Nat.eq_zero_or_pos k with rfl | hk
      · decide
      · exact (Nat.log2_lt hk.ne').mpr (lt_of_le_of_ne h.le hcarry)
    have hcut : (max (k.log2 + 1 + u - 53) (-1074) - u).toNat = 0 := by omega
    rw [hcut]
    exact ⟨rfl, add_zero u⟩

theorem toNat_pack_shift_exact {u : Int} {k : Nat} (h : Rounded x u k) :
    let second := shiftToTargetExponent .binary64 k u .exact
    (UnpackedFloat.pack .binary64 (if h : second.1.mantissa = 0 then .zero .positive
      else .finite .positive second.1.mantissa second.2 (Nat.pos_of_ne_zero h))).toNat =
      if Rounded.bits u k < 2047 * twoTo 52 then Rounded.bits u k else 2047 * twoTo 52 := by
  obtain ⟨hmantissa, hexponent⟩ := shift_exact h
  have hle : k ≤ 2 ^ 53 := h.le
  have hlead := h.leading
  have hleast := h.least
  intro second
  change second.1.mantissa = _ at hmantissa
  change second.2 = _ at hexponent
  generalize second.1.mantissa = n at *
  generalize second.2 = f at *
  by_cases hcarry : k = 2 ^ 53
  · rw [if_pos hcarry] at hmantissa hexponent
    subst hmantissa hexponent
    have hbits : Rounded.bits (u + 1) (2 ^ 52) = Rounded.bits u k := by
      rw [Rounded.bits, Rounded.bits, twoTo_52]
      omega
    rw [dif_neg (by norm_num), toNat_pack _ (by norm_num) (by omega) (.inr le_rfl), hbits]
  · rw [if_neg hcarry] at hmantissa hexponent
    subst hmantissa hexponent
    by_cases hzero : n = 0
    · subst hzero
      obtain rfl := hlead.resolve_right (by norm_num)
      rfl
    · rw [dif_neg hzero]
      exact toNat_pack _ (by omega) hleast hlead

/-- What is located finely enough is rounded to the nearest float. -/
theorem nearestTo_roundWithAccuracy {accuracy : Accuracy}
    (h : Located (x / 2 ^ e) (.ofMantissaAndAccuracy m accuracy)) (hfine : e ≤ -1074 ∨ 2 ^ 52 ≤ m) :
    NearestTo x (ofBits (UnpackedFloat.pack .binary64
      (roundWithAccuracy .binary64 .positive m e accuracy)).toNat) := by
  have hrounded := rounded_shift h hfine
  rw [roundWithAccuracy]
  dsimp only
  rw [toNat_pack_shift_exact hrounded]
  exact hrounded.nearestTo

/-! Products and quotients of floats that have no sign. -/

theorem unpack_of_ofFloat {z : Float} (h : ofFloat z = finite false m e) :
    m = 0 ∧ z.toModel.unpack = .zero .positive ∨
      ∃ hm : 0 < m, z.toModel.unpack = .finite .positive m e hm := by
  rw [ofFloat_eq] at h
  generalize z.toModel.unpack = a at *
  rcases a with s | _ | s | ⟨s, k, f, hk⟩
  · cases h
  · cases h
  · cases s <;> cases h
    exact .inl ⟨rfl, rfl⟩
  · cases s <;> cases h
    exact .inr ⟨hk, rfl⟩

theorem canonical_of_ofFloat {z : Float} {negative : Bool} (h : ofFloat z = finite negative m e) :
    Canonical m e := canonical_ofBits h

theorem nearestTo_pack_zero :
    NearestTo 0 (ofBits (UnpackedFloat.pack .binary64 (.zero .positive)).toNat) := by
  have hbits : ofBits (UnpackedFloat.pack .binary64 (.zero .positive)).toNat =
      finite false 0 (-1074) := by decide
  rw [hbits]
  exact nearestTo_zero

theorem nearestTo_mul {a b : Float} (ha : ofFloat a = finite false m e)
    (hb : ofFloat b = finite false n f) :
    NearestTo (magnitude m e * magnitude n f) (ofFloat (a * b)) := by
  have hproduct : ofFloat (a * b) = ofBits (UnpackedFloat.pack .binary64
      (UnpackedFloat.mul .binary64 a.toModel.unpack b.toModel.unpack)).toNat := rfl
  rw [hproduct]
  rcases unpack_of_ofFloat ha with ⟨rfl, ha'⟩ | ⟨hm, ha'⟩ <;>
    rcases unpack_of_ofFloat hb with ⟨rfl, hb'⟩ | ⟨hn, hb'⟩ <;> rw [ha', hb']
  · rw [magnitude_zero, zero_mul]
    exact nearestTo_pack_zero
  · rw [magnitude_zero, zero_mul]
    exact nearestTo_pack_zero
  · rw [magnitude_zero, mul_zero]
    exact nearestTo_pack_zero
  · refine nearestTo_roundWithAccuracy ?_ ?_
    · have hexact := Located.exact (m * n)
      have hvalue : magnitude m e * magnitude n f / 2 ^ (e + f) = (m * n : Nat) := by
        rw [magnitude, magnitude, zpow_two_add, div_eq_iff (by positivity)]
        push_cast
        ring
      rwa [hvalue]
    · rcases (canonical_of_ofFloat ha).leading with he | hlarge
      · rcases (canonical_of_ofFloat hb).leading with hf | hlarge
        · exact .inl (by omega)
        · exact .inr (hlarge.trans (Nat.le_mul_of_pos_left n hm))
      · exact .inr (hlarge.trans (Nat.le_mul_of_pos_right m hn))

/-- A division starts from a mantissa that is large enough to give all bits of the quotient. -/
theorem divCore_fine (hm : 0 < m) (hn : 0 < n) (e f : Int) :
    (divCore .binary64 m e n f).2.1 ≤ -1074 ∨ 2 ^ 52 ≤ (divCore .binary64 m e n f).1 := by
  have htarget : Format.binary64.targetExponent (totalExponent m e - totalExponent n f) =
      max (m.log2 + 1 + e - (n.log2 + 1 + f) - 53) (-1074) := rfl
  simp only [divCore, htarget]
  refine or_iff_not_imp_left.mpr fun hlarge => ?_
  generalize hshift : (e - f - min (e - f) (max (m.log2 + 1 + e - (n.log2 + 1 + f) - 53)
    (-1074))).toNat = shift
  have hcount : 53 + n.log2 ≤ m.log2 + shift := by omega
  rw [Nat.le_div_iff_mul_le hn, Nat.shiftLeft_eq]
  calc 2 ^ 52 * n ≤ 2 ^ 52 * 2 ^ (n.log2 + 1) := Nat.mul_le_mul_left _ Nat.lt_log2_self.le
    _ = 2 ^ (53 + n.log2) := by
        rw [← Nat.pow_add]
        congr 1
        omega
    _ ≤ 2 ^ (m.log2 + shift) := Nat.pow_le_pow_right two_pos hcount
    _ = 2 ^ m.log2 * 2 ^ shift := Nat.pow_add _ _ _
    _ ≤ m * 2 ^ shift := Nat.mul_le_mul_right _ (Nat.log2_self_le hm.ne')

theorem located_divCore (hn : 0 < n) (m : Nat) (e f : Int) :
    Located (magnitude m e / magnitude n f / 2 ^ (divCore .binary64 m e n f).2.1)
      (.ofMantissaAndAccuracy (divCore .binary64 m e n f).1
        (divCore .binary64 m e n f).2.2) := by
  simp only [divCore]
  generalize Format.binary64.targetExponent (totalExponent m e - totalExponent n f) = t
  obtain ⟨shift, hshift⟩ := Int.le.dest (min_le_left (e - f) t)
  have hcount : (e - f - min (e - f) t).toNat = shift := by omega
  have hvalue : magnitude m e / magnitude n f / 2 ^ min (e - f) t = (m <<< shift : Nat) / n := by
    have hpower : (2 : ℚ) ^ e = 2 ^ f * (2 ^ min (e - f) t * 2 ^ shift) := by
      rw [← zpow_natCast, ← zpow_two_add, ← zpow_two_add]
      congr 1
      omega
    rw [magnitude, magnitude, Nat.shiftLeft_eq, hpower]
    push_cast
    field_simp
  rw [hcount, hvalue]
  exact .quotient _ hn

theorem nearestTo_div {a b : Float} (ha : ofFloat a = finite false m e)
    (hb : ofFloat b = finite false n f) (hn : 0 < n) :
    NearestTo (magnitude m e / magnitude n f) (ofFloat (a / b)) := by
  have hquotient : ofFloat (a / b) = ofBits (UnpackedFloat.pack .binary64
      (UnpackedFloat.div .binary64 a.toModel.unpack b.toModel.unpack)).toNat := rfl
  obtain ⟨_, hb'⟩ := (unpack_of_ofFloat hb).resolve_left fun hzero => hn.ne' hzero.1
  rw [hquotient, hb']
  rcases unpack_of_ofFloat ha with ⟨rfl, ha'⟩ | ⟨hm, ha'⟩ <;> rw [ha']
  · rw [magnitude_zero, zero_div]
    exact nearestTo_pack_zero
  · exact nearestTo_roundWithAccuracy (located_divCore hn m e f) (divCore_fine hm hn e f)

/-! Natural numbers as floats. -/

theorem nearestTo_round (hm : 0 < m) (e : Int) : NearestTo (magnitude m e)
    (ofBits (UnpackedFloat.pack .binary64
      (UnpackedFloat.round .binary64 .positive m e)).toNat) := by
  have htarget : Format.binary64.targetExponent (totalExponent m e) =
      max (m.log2 + 1 + e - 53) (-1074) := rfl
  simp only [UnpackedFloat.round, UnpackedFloat.decreaseExponent, htarget]
  generalize hshift : (e - max (m.log2 + 1 + e - 53) (-1074)).toNat = shift
  refine nearestTo_roundWithAccuracy ?_ (or_iff_not_imp_left.mpr fun hlarge => ?_)
  · have hvalue : magnitude m e / 2 ^ (e - shift) = (m <<< shift : Nat) := by
      have hpower : (2 : ℚ) ^ e = 2 ^ shift * 2 ^ (e - shift) := by
        rw [← zpow_natCast, ← zpow_two_add]
        congr 1
        omega
      rw [magnitude, Nat.shiftLeft_eq, hpower, div_eq_iff (by positivity)]
      push_cast
      ring
    rw [hvalue]
    exact .exact _
  · rw [Nat.shiftLeft_eq]
    calc 2 ^ 52 ≤ 2 ^ (m.log2 + shift) := Nat.pow_le_pow_right two_pos (by omega)
      _ = 2 ^ m.log2 * 2 ^ shift := Nat.pow_add _ _ _
      _ ≤ m * 2 ^ shift := Nat.mul_le_mul_right _ (Nat.log2_self_le hm.ne')

theorem Fits.lt_limit {k : Nat} {u : Int} (h : Fits k u) : magnitude k u < limit := by
  have hlt : (k : ℚ) < 2 ^ 53 - 1 / 2 := by
    have hle : (k : ℚ) + 1 ≤ 2 ^ 53 := by exact_mod_cast h.lt
    linarith
  calc magnitude k u ≤ k * 2 ^ (971 : Int) :=
        mul_le_mul_of_nonneg_left (zpow_two_le h.greatest) (Nat.cast_nonneg k)
    _ < limit := mul_lt_mul_of_pos_right hlt (zpow_two_pos 971)

theorem NearestTo.eq_magnitude {b : Binary64} {k : Nat} {u : Int}
    (h : NearestTo (magnitude k u) b) (hk : Fits k u) :
    ∃ m e, b = .finite false m e ∧ magnitude m e = magnitude k u := by
  cases h with
  | @finite m e canonical below near even =>
    have hnear := near k u hk
    rw [sub_self, abs_zero] at hnear
    exact ⟨m, e, rfl, (sub_eq_zero.mp (abs_nonpos_iff.mp hnear)).symm⟩
  | infinite beyond => exact absurd hk.lt_limit (not_lt.mpr beyond)

theorem exists_fits_natCast {n : Nat} (hn : n ≤ 2 ^ 53) :
    ∃ k u, Fits k u ∧ magnitude k u = n := by
  obtain ⟨k, u, hfits, hvalue⟩ := exists_fits hn (by norm_num : -1074 ≤ (0 : Int)) (by norm_num)
  refine ⟨k, u, hfits, ?_⟩
  rw [hvalue, magnitude, zpow_zero, mul_one]

theorem nearestTo_toFloat {n : Nat} (hn : n < 2 ^ 53) : NearestTo n (ofFloat n.toUInt64.toFloat) := by
  have hword : n.toUInt64.toNat = n := by
    change n % 2 ^ 64 = n
    omega
  have hbits : ofFloat n.toUInt64.toFloat = ofBits (UnpackedFloat.pack .binary64
      (UnpackedFloat.normalize .binary64 (n.toUInt64.toNat : Nat) 0 .positive)).toNat := rfl
  rw [hbits, hword, UnpackedFloat.normalize]
  rcases Nat.eq_zero_or_pos n with rfl | hpos
  · exact_mod_cast nearestTo_pack_zero
  · rw [compare_gt_iff_gt.mpr (by exact_mod_cast hpos)]
    have hround := nearestTo_round hpos 0
    rw [magnitude, zpow_zero, mul_one] at hround
    exact hround

/-- A number of at most 53 bits goes through a multiplication by one. -/
theorem ofNat_eq_mul {n : Nat} (hn : n < 2 ^ 53) :
    Float.ofNat n = n.toUInt64.toFloat * Float.ofBits 0x3FF0000000000000 := by
  have hfast : n < 2 ^ 53 ∧ 0 ≤ 22 := ⟨hn, by norm_num⟩
  unfold Float.ofNat
  change Float.ofScientific n false 0 = _
  rw [Float.ofScientific, dif_pos hfast]
  rfl

theorem ofFloat_ofNat {n : Nat} (hn : ¬ n < 2 ^ 53) :
    ofFloat (Float.ofNat n) = ofBits (UnpackedFloat.pack .binary64
      (roundWithAccuracy .binary64 .positive (n * 2 ^ 53) (-53) .exact)).toNat := by
  have hslow : Float.ofNat n = Float.ofModel (Float.Model.ofScientific n 0) := by
    unfold Float.ofNat
    change Float.ofScientific n false 0 = _
    rw [Float.ofScientific, dif_neg fun h => hn h.1]
    rfl
  have hbits : ofFloat (Float.ofNat n) = ofBits (UnpackedFloat.pack .binary64
      (UnpackedFloat.ofScientific .binary64 n 0)).toNat := by
    rw [hslow]
    rfl
  have hzero : n ≠ 0 := by omega
  have hwidth : Format.binary64.mantissaBits = 53 := rfl
  have hpower : (2 : Int) ^ Format.binary64.exponentBits = 2048 := rfl
  have hproduct : UnpackedFloat.ofScientific .binary64 n 0 =
      roundWithAccuracy .binary64 .positive (n * 2 ^ 53) (-53) .exact := by
    rw [UnpackedFloat.ofScientific, dif_neg hzero, hpower, if_neg (by omega),
      if_neg (by omega), if_pos le_rfl]
    dsimp only [UnpackedFloat.mul]
    simp only [hwidth, Nat.shiftLeft_eq, Int.toNat_zero, pow_zero, mul_one, add_zero]
    rfl
  rw [hbits, hproduct]

theorem nearestTo_ofNat (n : Nat) : NearestTo n (ofFloat (Float.ofNat n)) := by
  by_cases hn : n < 2 ^ 53
  · have hone : ofFloat (Float.ofBits 0x3FF0000000000000) = finite false (2 ^ 52) (-52) := by
      decide
    obtain ⟨k, u, hfits, hvalue⟩ := exists_fits_natCast hn.le
    have hself := nearestTo_toFloat hn
    rw [← hvalue] at hself
    obtain ⟨m, e, hm, hsame⟩ := hself.eq_magnitude hfits
    have hnearest := nearestTo_mul hm hone
    rw [hsame, hvalue] at hnearest
    rw [ofNat_eq_mul hn]
    convert hnearest using 1
    norm_num [magnitude]
  · have hvalue : (n : ℚ) / 2 ^ (-53 : Int) = (n * 2 ^ 53 : Nat) := by
      rw [zpow_neg, div_inv_eq_mul]
      norm_num
    rw [ofFloat_ofNat hn]
    refine nearestTo_roundWithAccuracy ?_ (.inr (by omega))
    rw [hvalue]
    exact .exact _

/-! Quotients of either sign. -/

/-- The float nearest to a number: below zero the opposite of the one nearest to the opposite. -/
def IsNearest (x : ℚ) (b : Binary64) : Prop :=
  if x < 0 then NearestTo (-x) b.opposite else NearestTo x b

theorem roundWithAccuracy_neg (s : Sign) (m : Nat) (e : Int) (a : Accuracy) :
    roundWithAccuracy .binary64 (-s) m e a = (roundWithAccuracy .binary64 s m e a).neg := by
  unfold roundWithAccuracy
  dsimp only
  rw [apply_dite UnpackedFloat.neg]
  rfl

theorem unpacked_neg_div (a b : UnpackedFloat) :
    UnpackedFloat.div .binary64 a.neg b = (UnpackedFloat.div .binary64 a b).neg := by
  have hsign (s t : Sign) : -s / t = -(s / t) := by cases s <;> cases t <;> rfl
  cases a <;> cases b <;> dsimp only [UnpackedFloat.neg, UnpackedFloat.div] <;> rw [hsign]
  exact roundWithAccuracy_neg _ _ _ _

theorem ofFloat_neg_div (a b : Float) : ofFloat (-a / b) = (ofFloat (a / b)).opposite := by
  have hquotient (a : Float) : ofFloat (a / b) = ofBits (UnpackedFloat.pack .binary64
      (UnpackedFloat.div .binary64 a.toModel.unpack b.toModel.unpack)).toNat := rfl
  rw [hquotient, hquotient, unpack_neg, unpacked_neg_div, ofBits_pack_neg]

theorem isNearest_div {num : Int} {b : Float} (hnum : num.natAbs ≤ 2 ^ 53)
    (hb : ofFloat b = finite false n f) (hn : 0 < n) :
    IsNearest (num / magnitude n f) (ofFloat (Float.ofInt num / b)) := by
  have hpos := magnitude_pos hn f
  have hquotient {k : Nat} (hk : k ≤ 2 ^ 53) :
      NearestTo (k / magnitude n f) (ofFloat (Float.ofNat k / b)) := by
    obtain ⟨j, u, hfits, hvalue⟩ := exists_fits_natCast hk
    have hself := nearestTo_ofNat k
    rw [← hvalue] at hself ⊢
    obtain ⟨m, e, hm, hsame⟩ := hself.eq_magnitude hfits
    rw [← hsame]
    exact nearestTo_div hm hb hn
  rcases num with k | k
  · have hnonneg : ¬ ((Int.ofNat k : Int) : ℚ) / magnitude n f < 0 := by
      rw [not_lt]
      exact div_nonneg (by simp) hpos.le
    rw [IsNearest, if_neg hnonneg]
    exact hquotient hnum
  · have hneg : ((Int.negSucc k : Int) : ℚ) = -((k + 1 : Nat) : ℚ) := Int.cast_negSucc k
    have hbelow : -((k + 1 : Nat) : ℚ) / magnitude n f < 0 :=
      div_neg_of_neg_of_pos (neg_lt_zero.mpr (by exact_mod_cast Nat.succ_pos k)) hpos
    have hfloat : Float.ofInt (Int.negSucc k) = -Float.ofNat (k + 1) := rfl
    rw [hneg, IsNearest, if_pos hbelow, hfloat, ofFloat_neg_div, opposite_opposite, ← neg_div,
      neg_neg]
    exact hquotient hnum

end Binary64
end Quizdown
