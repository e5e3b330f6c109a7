import Quizdown.Proofs.Decimal.Bits

/-! The exact number behind a float. A float is finite exactly if there is one; comparing two finite
floats compares their numbers, and the opposite float has the opposite number. -/
set_option autoImplicit false

namespace Quizdown
namespace Binary64

open Float.Model (UnpackedFloat)
open Float.Model.UnpackedFloat (Sign)

def value? : Binary64 → Option ℚ
  | finite negative mantissa exponent =>
    some (if negative then -magnitude mantissa exponent else magnitude mantissa exponent)
  | _ => none

/-! Comparing. -/

variable {m n : Nat} {e f : Int} {v w : ℚ}

theorem magnitude_pos (hm : 0 < m) (e : Int) : 0 < magnitude m e :=
  mul_pos (by exact_mod_cast hm) (zpow_two_pos e)

theorem Canonical.magnitude_lt (hm : Canonical m e) (hn : Canonical n f) (hlt : e < f) :
    magnitude m e < magnitude n f := by
  have hlead : 2 ^ 52 ≤ n := hn.leading.resolve_left (by have := hm.least; omega)
  calc magnitude m e < 2 ^ 53 * 2 ^ e :=
        mul_lt_mul_of_pos_right (by exact_mod_cast hm.lt) (zpow_two_pos e)
    _ = 2 ^ 52 * 2 ^ (1 + e) := by
        rw [zpow_two_add]
        ring
    _ ≤ 2 ^ 52 * 2 ^ f := mul_le_mul_of_nonneg_left (zpow_two_le (by omega)) (by norm_num)
    _ ≤ magnitude n f := mul_le_mul_of_nonneg_right (by exact_mod_cast hlead) (zpow_two_pos f).le

theorem Canonical.compares_magnitude (hm : Canonical m e) (hn : Canonical n f) :
    ((compare e f).then (compare m n)).Compares (magnitude m e) (magnitude n f) := by
  rcases lt_trichotomy e f with hlt | rfl | hlt
  · rw [compare_lt_iff_lt.mpr hlt]
    exact hm.magnitude_lt hn hlt
  · have hpos := zpow_two_pos e
    rw [compare_eq_iff_eq.mpr rfl, Ordering.eq_then]
    rcases lt_trichotomy m n with hlt | rfl | hlt
    · rw [compare_lt_iff_lt.mpr hlt]
      exact mul_lt_mul_of_pos_right (by exact_mod_cast hlt) hpos
    · rw [compare_eq_iff_eq.mpr rfl]
      rfl
    · rw [compare_gt_iff_gt.mpr hlt]
      exact mul_lt_mul_of_pos_right (by exact_mod_cast hlt) hpos
  · rw [compare_gt_iff_gt.mpr hlt]
    exact hn.magnitude_lt hm hlt

theorem compares_neg {o : Ordering} (h : o.Compares v w) : o.swap.Compares (-v) (-w) := by
  cases o with
  | lt => exact neg_lt_neg h
  | eq => exact congrArg Neg.neg h
  | gt => exact neg_lt_neg h

/-- Comparing floats as their fields is comparing their numbers. -/
theorem exists_compare (x y : Float) (hx : (ofFloat x).value? = some v)
    (hy : (ofFloat y).value? = some w) :
    ∃ o, x.toModel.unpack.compare y.toModel.unpack = some o ∧ o.Compares v w := by
  have hcx : ∀ b m e, ofFloat x = finite b m e → Canonical m e := fun _ _ _ => canonical_ofBits
  have hcy : ∀ b m e, ofFloat y = finite b m e → Canonical m e := fun _ _ _ => canonical_ofBits
  rw [ofFloat_eq] at hx hy hcx hcy
  generalize x.toModel.unpack = a at *
  generalize y.toModel.unpack = b at *
  have hzero (s : Sign) (u : ℚ) (h : (ofUnpacked (.zero s)).value? = some u) : u = 0 := by
    rw [← Option.some.inj h, magnitude_zero, neg_zero, ite_self]
  rcases a with s | _ | s | ⟨s, m, e, hm⟩
  · cases hx
  · cases hx
  · obtain rfl := hzero s v hx
    rcases b with t | _ | t | ⟨t, n, f, hn⟩
    · cases hy
    · cases hy
    · obtain rfl := hzero t w hy
      exact ⟨.eq, by cases s <;> cases t <;> rfl, rfl⟩
    · have hpos := magnitude_pos hn f
      cases t <;> cases hy
      · exact ⟨.gt, by cases s <;> rfl, neg_lt_zero.mpr hpos⟩
      · exact ⟨.lt, by cases s <;> rfl, hpos⟩
  · have hmpos := magnitude_pos hm e
    have hcm := hcx _ m e rfl
    rcases b with t | _ | t | ⟨t, n, f, hn⟩
    · cases hy
    · cases hy
    · obtain rfl := hzero t w hy
      cases s <;> cases hx
      · exact ⟨.lt, by cases t <;> rfl, neg_lt_zero.mpr hmpos⟩
      · exact ⟨.gt, by cases t <;> rfl, hmpos⟩
    · have hnpos := magnitude_pos hn f
      have hcompares := hcm.compares_magnitude (hcy _ n f rfl)
      cases s <;> cases t <;> cases hx <;> cases hy
      · exact ⟨_, rfl, compares_neg hcompares⟩
      · exact ⟨.lt, rfl, (neg_lt_zero.mpr hmpos).trans hnpos⟩
      · exact ⟨.gt, rfl, (neg_lt_zero.mpr hnpos).trans hmpos⟩
      · exact ⟨_, rfl, hcompares⟩

theorem lt_iff_compare {x y : Float} :
    x < y ↔ x.toModel.unpack.compare y.toModel.unpack = some .lt := by
  change decide (x.toModel < y.toModel) = true ↔ _
  rw [decide_eq_true_iff]
  change (x.toModel.unpack.compare y.toModel.unpack == some .lt) = true ↔ _
  rw [beq_iff_eq]

theorem le_iff_compare {x y : Float} :
    x ≤ y ↔ ∃ o, x.toModel.unpack.compare y.toModel.unpack = some o ∧ o ≠ .gt := by
  change decide (x.toModel ≤ y.toModel) = true ↔ _
  rw [decide_eq_true_iff]
  change (x.toModel.unpack.compare y.toModel.unpack).any (·.isLE) = true ↔ _
  rw [Option.any_eq_true]
  simp only [Ordering.isLE_iff_ne_gt]

theorem lt_iff {x y : Float} (hx : (ofFloat x).value? = some v) (hy : (ofFloat y).value? = some w) :
    x < y ↔ v < w := by
  obtain ⟨o, hcompare, ho⟩ := exists_compare x y hx hy
  rw [lt_iff_compare, hcompare, Option.some_inj, ho.eq_lt]

theorem le_iff {x y : Float} (hx : (ofFloat x).value? = some v) (hy : (ofFloat y).value? = some w) :
    x ≤ y ↔ v ≤ w := by
  obtain ⟨o, hcompare, ho⟩ := exists_compare x y hx hy
  simp only [le_iff_compare, hcompare, Option.some_inj, exists_eq_left', ho.ne_gt]

theorem isFinite_iff {x : Float} : x.isFinite = true ↔ ∃ v, (ofFloat x).value? = some v := by
  rw [ofFloat_eq]
  change x.toModel.unpack.isFinite = true ↔ _
  cases x.toModel.unpack with
  | notANumber => exact iff_of_false Bool.false_ne_true (by rintro ⟨v, ⟨⟩⟩)
  | infinity s => exact iff_of_false Bool.false_ne_true (by rintro ⟨v, ⟨⟩⟩)
  | zero s => exact iff_of_true rfl ⟨_, rfl⟩
  | finite s m e hm => exact iff_of_true rfl ⟨_, rfl⟩

/-- What stands between two finite floats is finite. -/
theorem isFinite_of_le {x y z : Float} (hx : x.isFinite = true) (hz : z.isFinite = true)
    (hxy : x ≤ y) (hyz : y ≤ z) : y.isFinite = true := by
  obtain ⟨o, ho, hle⟩ := le_iff_compare.mp hxy
  obtain ⟨o', ho', hle'⟩ := le_iff_compare.mp hyz
  change x.toModel.unpack.isFinite = true at hx
  change z.toModel.unpack.isFinite = true at hz
  change y.toModel.unpack.isFinite = true
  generalize x.toModel.unpack = a at *
  generalize y.toModel.unpack = b at *
  generalize z.toModel.unpack = c at *
  cases b with
  | notANumber => cases a <;> cases ho
  | infinity s =>
    cases s with
    | positive =>
      cases c with
      | notANumber => cases hz
      | infinity => cases hz
      | zero => cases ho' ; exact absurd rfl hle'
      | finite => cases ho' ; exact absurd rfl hle'
    | negative =>
      cases a with
      | notANumber => cases hx
      | infinity => cases hx
      | zero => cases ho ; exact absurd rfl hle
      | finite => cases ho ; exact absurd rfl hle
  | zero => rfl
  | finite => rfl

/-! The opposite float. -/

theorem value?_opposite (b : Binary64) : b.opposite.value? = b.value?.map Neg.neg := by
  cases b with
  | nan => rfl
  | infinite => rfl
  | finite negative => cases negative <;> simp [opposite, value?]

theorem value?_neg (x : Float) : (ofFloat (-x)).value? = (ofFloat x).value?.map Neg.neg := by
  rw [ofFloat_neg, value?_opposite]

end Binary64
end Quizdown
