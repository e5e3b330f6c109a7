import Quizdown.Proofs.Decimal.Nearest

/-! The bits of a float as fields that are packed and unpacked. What is packed has the fields it was
packed from, and the first bit is the sign. -/
set_option autoImplicit false

namespace Quizdown
namespace Binary64

open Float.Model (UnpackedFloat Format)
open Float.Model.UnpackedFloat (Sign packComponents)

def isNegative : Sign → Bool
  | .positive => false
  | .negative => true

def ofUnpacked : UnpackedFloat → Binary64
  | .notANumber => nan
  | .infinity s => infinite (isNegative s)
  | .zero s => finite (isNegative s) 0 (-1074)
  | .finite s m e _ => finite (isNegative s) m e

theorem ofUnpacked_injective : Function.Injective ofUnpacked := by
  have hsign : Function.Injective isNegative := by
    intro s t
    cases s <;> cases t <;> simp [isNegative]
  intro a b hab
  cases a <;> cases b <;> dsimp only [ofUnpacked] at hab <;>
    simp only [reduceCtorEq, infinite.injEq, finite.injEq] at hab
  · rw [hsign hab]
  · rfl
  · rw [hsign hab.1]
  · omega
  · omega
  · obtain ⟨hs, rfl, rfl⟩ := hab
    rw [hsign hs]

def opposite : Binary64 → Binary64
  | nan => nan
  | infinite negative => infinite !negative
  | finite negative m e => finite (!negative) m e

theorem opposite_opposite (b : Binary64) : b.opposite.opposite = b := by
  cases b <;> simp [opposite]

theorem isNegative_neg (s : Sign) : isNegative (-s) = !isNegative s := by cases s <;> rfl

theorem ofUnpacked_neg (a : UnpackedFloat) : ofUnpacked a.neg = (ofUnpacked a).opposite := by
  cases a with
  | notANumber => rfl
  | infinity s => exact congrArg infinite (isNegative_neg s)
  | zero s => exact congrArg (finite · 0 (-1074)) (isNegative_neg s)
  | finite s m e _ => exact congrArg (finite · m e) (isNegative_neg s)

/-! The fields of a float, taken apart as bit vectors. -/

theorem isNegative_ofBitVec (v : BitVec 1) : isNegative (Sign.ofBitVec v) = (v.toNat == 1) := by
  revert v
  decide

theorem ofUnpacked_unpack (b : BitVec 64) :
    ofUnpacked (UnpackedFloat.unpack .binary64 b) = ofBits b.toNat := by
  have hsign : (@UnpackedFloat.unpackSign .binary64 b).toNat =
      b.toNat / twoTo 63 % 2 := by
    unfold UnpackedFloat.unpackSign
    rw [BitVec.toNat_cast, BitVec.extractLsb_toNat,
      Nat.shiftRight_eq_div_pow]
    rfl
  have hexponent : (@UnpackedFloat.unpackExponent .binary64 b).toNat =
      b.toNat / twoTo 52 % twoTo 11 := by
    rw [UnpackedFloat.unpackExponent, BitVec.toNat_cast, BitVec.extractLsb_toNat,
      Nat.shiftRight_eq_div_pow]
    rfl
  have hmantissa : (@UnpackedFloat.unpackMantissa .binary64 b).toNat =
      b.toNat % twoTo 52 := by
    rw [UnpackedFloat.unpackMantissa, BitVec.toNat_cast, BitVec.extractLsb_toNat]
    rfl
  have hlast (v : BitVec 11) : v = -1#11 ↔ v.toNat = 2047 := by
    rw [← BitVec.toNat_inj]
    rfl
  have hzero {w : Nat} (v : BitVec w) : v = 0#w ↔ v.toNat = 0 := by
    rw [← BitVec.toNat_inj, BitVec.toNat_zero]
  have hleading (v : BitVec 52) : (1#1 ++ v).toNat = v.toNat + twoTo 52 := by
    rw [BitVec.toNat_append, ← Nat.shiftLeft_add_eq_or_of_lt v.isLt, Nat.shiftLeft_eq, Nat.add_comm]
    rfl
  rw [ofBits, ← hsign, ← hexponent, ← hmantissa, ← isNegative_ofBitVec]
  unfold UnpackedFloat.unpack
  by_cases hinfinite : @UnpackedFloat.unpackExponent .binary64 b = -1#11
  · rw [if_pos hinfinite, if_pos ((hlast _).mp hinfinite)]
    by_cases hnumber : @UnpackedFloat.unpackMantissa .binary64 b = 0#52
    · rw [if_pos hnumber, if_pos ((hzero _).mp hnumber)]
      rfl
    · rw [if_neg hnumber, if_neg (mt (hzero _).mpr hnumber)]
      rfl
  · rw [if_neg hinfinite, if_neg (mt (hlast _).mpr hinfinite)]
    by_cases hsmall : @UnpackedFloat.unpackExponent .binary64 b = 0#11
    · rw [if_pos hsmall, if_pos ((hzero _).mp hsmall)]
      by_cases hnone : @UnpackedFloat.unpackMantissa .binary64 b = 0#52
      · rw [dif_pos hnone, (hzero _).mp hnone]
        rfl
      · rw [dif_neg hnone]
        exact congrArg (finite _ _) (by rw [hsmall]; rfl)
    · rw [if_neg hsmall, if_neg (mt (hzero _).mpr hsmall)]
      exact congrArg (finite _ · _) (hleading _)

theorem ofFloat_eq (x : Float) : ofFloat x = ofUnpacked x.toModel.unpack :=
  (ofUnpacked_unpack x.toModel.toBits.toBitVec).symm

theorem canonical_ofBits {bits m : Nat} {negative : Bool} {e : Int}
    (h : ofBits bits = finite negative m e) : Canonical m e := by
  have hfraction : bits % twoTo 52 < twoTo 52 := Nat.mod_lt _ (Nat.pow_pos two_pos)
  have hfield : bits / twoTo 52 % twoTo 11 < 2048 := Nat.mod_lt _ (Nat.pow_pos two_pos)
  rw [twoTo_52] at hfraction
  unfold ofBits at h
  dsimp only at h
  split_ifs at h with hinfinite hnumber hsmall
  · cases h
    exact ⟨⟨by rw [twoTo_52]; omega, by omega, by omega⟩, .inl rfl⟩
  · cases h
    exact ⟨⟨by rw [twoTo_52]; omega, by omega, by omega⟩, .inr (by rw [twoTo_52]; omega)⟩

/-! Packing. -/

theorem toNat_packComponents (exponent : BitVec 11) (mantissa : BitVec 52) :
    (packComponents .binary64 .positive exponent mantissa).toNat =
      exponent.toNat * twoTo 52 + mantissa.toNat := by
  rw [packComponents, BitVec.toNat_append, ← Nat.shiftLeft_add_eq_or_of_lt mantissa.isLt,
    BitVec.toNat_append, ← Nat.shiftLeft_add_eq_or_of_lt exponent.isLt, Nat.shiftLeft_eq,
    Nat.shiftLeft_eq]
  simp [Sign.toBitVec, twoTo]

theorem toNat_packComponents_negative (exponent : BitVec 11) (mantissa : BitVec 52) :
    (packComponents .binary64 .negative exponent mantissa).toNat =
      twoTo 63 + (packComponents .binary64 .positive exponent mantissa).toNat := by
  rw [toNat_packComponents, packComponents, BitVec.toNat_append,
    ← Nat.shiftLeft_add_eq_or_of_lt mantissa.isLt, BitVec.toNat_append,
    ← Nat.shiftLeft_add_eq_or_of_lt exponent.isLt, Nat.shiftLeft_eq, Nat.shiftLeft_eq]
  simp [Sign.toBitVec, twoTo]
  omega

/-- The first bit decides the sign and nothing else. -/
theorem ofBits_add_twoTo {bits : Nat} (h : bits < twoTo 63) :
    ofBits (twoTo 63 + bits) = (ofBits bits).opposite := by
  have hsign : twoTo 63 = 9223372036854775808 := rfl
  have hexponents : twoTo 11 = 2048 := rfl
  have hfirst : bits / twoTo 63 % 2 = 0 ∧ (twoTo 63 + bits) / twoTo 63 % 2 = 1 := by
    rw [hsign] at h ⊢
    omega
  have hfield : (twoTo 63 + bits) / twoTo 52 % twoTo 11 = bits / twoTo 52 % twoTo 11 := by
    rw [twoTo_52, hexponents, hsign]
    omega
  have hfraction : (twoTo 63 + bits) % twoTo 52 = bits % twoTo 52 := by
    rw [twoTo_52, hsign]
    omega
  simp only [ofBits, hfirst, hfield, hfraction]
  split_ifs <;> rfl

theorem ofBits_packComponents_neg (s : Sign) (exponent : BitVec 11) (mantissa : BitVec 52) :
    ofBits (packComponents .binary64 (-s) exponent mantissa).toNat =
      (ofBits (packComponents .binary64 s exponent mantissa).toNat).opposite := by
  have hlt : (packComponents .binary64 .positive exponent mantissa).toNat < twoTo 63 := by
    have hexponent : exponent.toNat < 2048 := exponent.isLt
    have hmantissa : mantissa.toNat < 4503599627370496 := mantissa.isLt
    have hsign : twoTo 63 = 9223372036854775808 := rfl
    rw [toNat_packComponents, twoTo_52, hsign]
    omega
  have hnegative := ofBits_add_twoTo hlt
  rw [← toNat_packComponents_negative] at hnegative
  cases s with
  | positive => exact hnegative
  | negative =>
    rw [hnegative, opposite_opposite]
    rfl

theorem ofBits_pack_neg (a : UnpackedFloat) :
    ofBits (UnpackedFloat.pack .binary64 a.neg).toNat =
      (ofBits (UnpackedFloat.pack .binary64 a).toNat).opposite := by
  cases a with
  | notANumber => decide
  | infinity s => exact ofBits_packComponents_neg s _ _
  | zero s => exact ofBits_packComponents_neg s _ _
  | finite s m e hm =>
    unfold UnpackedFloat.neg UnpackedFloat.pack
    dsimp only
    split_ifs <;> exact ofBits_packComponents_neg s _ _

/-- A mantissa and an exponent that is not too small are packed into their bits, and those of
infinity if the exponent is too great. -/
theorem toNat_pack {m : Nat} {e : Int} (hm : 0 < m) (hlt : m < 2 ^ 53) (hleast : -1074 ≤ e)
    (hlead : e = -1074 ∨ 2 ^ 52 ≤ m) :
    (UnpackedFloat.pack .binary64 (.finite .positive m e hm)).toNat =
      if Rounded.bits e m < 2047 * twoTo 52 then Rounded.bits e m else 2047 * twoTo 52 := by
  have hbiased : (e + Format.binary64.exponentBias +
      Format.binary64.mantissaBitsWithoutImplicit).toNat = (e + 1075).toNat := by
    have hbias : Format.binary64.exponentBias = 1023 := rfl
    have hbits : Format.binary64.mantissaBitsWithoutImplicit = 52 := rfl
    rw [hbias, hbits]
    omega
  have hlog : m.log2 + 1 = Format.binary64.mantissaBits ↔ 2 ^ 52 ≤ m := by
    have hbits : Format.binary64.mantissaBits = 53 := rfl
    rw [hbits, Nat.add_right_cancel_iff, Nat.log2_eq_iff hm.ne']
    omega
  unfold UnpackedFloat.pack
  dsimp only
  simp only [hbiased, hlog]
  rw [Rounded.bits, twoTo_52]
  split_ifs with hlarge hbound hnormal hbound hbound
  · omega
  · rfl
  · rw [toNat_packComponents, BitVec.toNat_ofNat, BitVec.toNat_ofNat, twoTo_52]
    omega
  · omega
  · rw [toNat_packComponents, BitVec.toNat_ofNat, BitVec.toNat_ofNat, twoTo_52]
    omega
  · omega

theorem ofBits_pack {a : UnpackedFloat}
    (h : ∀ negative m e, ofUnpacked a = finite negative m e → Canonical m e) :
    ofBits (UnpackedFloat.pack .binary64 a).toNat = ofUnpacked a := by
  have hpositive {m : Nat} {e : Int} (hm : 0 < m) (hcanonical : Canonical m e) :
      ofBits (UnpackedFloat.pack .binary64 (.finite .positive m e hm)).toNat =
        finite false m e := by
    obtain ⟨⟨hlt, hleast, hgreatest⟩, hlead⟩ := hcanonical
    obtain ⟨f, rfl⟩ : ∃ f : Nat, e = f - 1074 := ⟨(e + 1074).toNat, by omega⟩
    have hfield : ((f : Int) - 1074 + 1074).toNat = f := by omega
    have hbound : Rounded.bits (f - 1074) m < 2047 * twoTo 52 := by
      rw [Rounded.bits, hfield, twoTo_52]
      omega
    rw [toNat_pack hm hlt hleast hlead, if_pos hbound, Rounded.bits, hfield]
    rcases lt_or_ge m (twoTo 52) with hlow | hhigh
    · obtain rfl : f = 0 := by
        rw [twoTo_52] at hlow
        omega
      rw [Nat.zero_mul, Nat.zero_add]
      exact ofBits_subnormal hlow
    · exact ofBits_normal (by omega) hhigh hlt
  cases a with
  | notANumber => decide
  | infinity s => cases s <;> decide
  | zero s => cases s <;> decide
  | finite s m e hm =>
    have hbits := hpositive hm (h _ _ _ rfl)
    cases s with
    | positive => exact hbits
    | negative =>
      have hneg := ofBits_pack_neg (.finite .positive m e hm)
      rw [hbits] at hneg
      exact hneg

theorem ofBits_pack_unpack (b : BitVec 64) :
    ofBits (UnpackedFloat.pack .binary64 (UnpackedFloat.unpack .binary64 b)).toNat =
      ofBits b.toNat := by
  rw [ofBits_pack, ofUnpacked_unpack]
  intro negative m e h
  rw [ofUnpacked_unpack] at h
  exact canonical_ofBits h

theorem ofFloat_ofBits (bits : UInt64) : ofFloat (Float.ofBits bits) = ofBits bits.toNat :=
  ofBits_pack_unpack bits.toBitVec

theorem ofFloat_neg (x : Float) : ofFloat (-x) = (ofFloat x).opposite := by
  have hneg : ofFloat (-x) =
      ofBits (UnpackedFloat.pack .binary64 x.toModel.unpack.neg).toNat := rfl
  rw [hneg, ofBits_pack_neg, Float.Model.unpack, ofBits_pack_unpack]
  rfl

theorem unpack_neg (x : Float) : (-x).toModel.unpack = x.toModel.unpack.neg := by
  apply ofUnpacked_injective
  rw [← ofFloat_eq, ofFloat_neg, ofFloat_eq, ofUnpacked_neg]

end Binary64
end Quizdown
