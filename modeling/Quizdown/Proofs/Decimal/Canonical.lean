import Quizdown.Proofs.Decimal.Numeral
import Quizdown.Proofs.Decimal.Value

/-! Percentages and tolerances are written canonically. A number with at most so many places has one
numeral in which nothing can be left out, and that of the rounded number is written. -/
set_option autoImplicit false

namespace Quizdown
namespace Text

/-- The canonical numeral of a number. Only that of a negative number has a minus sign. -/
inductive Numeral (limit : Nat) : Text → ℚ → Prop
  | unsigned {s whole places : Text} (short : Short limit s whole places) :
      Numeral limit s (positional (whole.length - 1) (whole ++ places))
  | negative {s whole places : Text} (short : Short limit s whole places)
      (pos : 0 < positional (whole.length - 1) (whole ++ places)) :
      Numeral limit ('-' :: s) (-positional (whole.length - 1) (whole ++ places))

variable {s t whole places : Text} {limit : Nat} {x y : ℚ}

/-! Digits are given back by the number that they are read as. -/

theorem digitChar_sub {c : Char} (hc : c.isDigit = true) :
    Nat.digitChar (c.toNat - '0'.toNat) = c := by
  have hzero : '0'.toNat = 48 := rfl
  have hnine : '9'.toNat = 57 := rfl
  rw [Char.isDigit_iff_toNat] at hc
  rw [← Char.toNat_inj, Nat.toNat_digitChar_of_lt_ten (by omega)]
  omega

theorem ofNat_numeral (hdigits : ∀ c ∈ s, c.isDigit = true) (hne : s ≠ [])
    (hfirst : s.head? = some '0' → s = ['0']) : ofNat (numeral 10 s) = s := by
  induction s using List.reverseRecOn with
  | nil => exact absurd rfl hne
  | append_singleton s c ih =>
    rw [List.forall_mem_append, List.forall_mem_singleton] at hdigits
    have hten := sub_lt_ten hdigits.2
    rw [numeral_concat hdigits.2, ofNat]
    by_cases hs : s = []
    · subst hs
      rw [numeral, List.foldl_nil, Nat.mul_zero, Nat.zero_add, Nat.toDigits_of_lt_base hten,
        digitChar_sub hdigits.2, List.nil_append]
    · -- a zero in front would be the only digit
      have hhead : s.head? ≠ some '0' := by
        intro hhead
        have hwhole := hfirst (by rw [List.head?_append_of_ne_nil _ hs, hhead])
        cases s with
        | nil => exact hs rfl
        | cons d s => simp at hwhole
      have hfront := ih hdigits.1 hs fun h => absurd h hhead
      have hpos : numeral 10 s ≠ 0 := by
        intro hzero
        rw [← hfront, hzero] at hhead
        exact hhead rfl
      have hdiv : (10 * numeral 10 s + (c.toNat - '0'.toNat)) / 10 = numeral 10 s := by omega
      have hmod : (10 * numeral 10 s + (c.toNat - '0'.toNat)) % 10 = c.toNat - '0'.toNat := by
        omega
      rw [Nat.toDigits_of_base_le (by norm_num) (by omega), hdiv, hmod, digitChar_sub hdigits.2,
        ← ofNat, hfront]

theorem numeral_append (hdigits : ∀ c ∈ t, c.isDigit = true) (s : Text) :
    numeral 10 (s ++ t) / 10 ^ t.length = numeral 10 s ∧
      digits (numeral 10 (s ++ t)) t.length = t := by
  induction t using List.reverseRecOn with
  | nil => simp [digits]
  | append_singleton t c ih =>
    rw [List.forall_mem_append, List.forall_mem_singleton] at hdigits
    obtain ⟨hfront, hback⟩ := ih hdigits.1
    have hten := sub_lt_ten hdigits.2
    have hdiv : numeral 10 (s ++ t ++ [c]) / 10 = numeral 10 (s ++ t) := by
      rw [numeral_concat hdigits.2]
      omega
    have hmod : numeral 10 (s ++ t ++ [c]) % 10 = c.toNat - '0'.toNat := by
      rw [numeral_concat hdigits.2]
      omega
    rw [← List.append_assoc, List.length_append, List.length_singleton, digits, pow_succ',
      ← Nat.div_div_eq_div_mul, hdiv, hmod, hback, digitChar_sub hdigits.2]
    exact ⟨hfront, rfl⟩

theorem Short.eq_shortText (h : Short limit s whole places) :
    ∃ units : Nat, s = Binary64.shortText limit units ∧
      positional (whole.length - 1) (whole ++ places) = units / 10 ^ limit := by
  have hdigits := h.digits
  rw [List.forall_mem_append] at hdigits
  obtain ⟨zeros, hzeros, hlength⟩ : ∃ zeros : Text, (∀ c ∈ zeros, c = '0') ∧
      (places ++ zeros).length = limit := by
    have hfew := h.few
    refine ⟨List.replicate (limit - places.length) '0', fun c hc => List.eq_of_mem_replicate hc, ?_⟩
    simp
    omega
  have hplaces : ∀ c ∈ places ++ zeros, c.isDigit = true := by
    rw [List.forall_mem_append]
    exact ⟨hdigits.2, fun c hc => by rw [hzeros c hc]; rfl⟩
  obtain ⟨hfront, hback⟩ := numeral_append hplaces whole
  rw [hlength] at hfront hback
  have htext : s = Binary64.shortText limit (numeral 10 (whole ++ (places ++ zeros))) := by
    have hten : Binary64.tenTo limit = 10 ^ limit := rfl
    rw [Binary64.shortText, Binary64.unitsText, hten, hfront, hback,
      ofNat_numeral hdigits.1 h.integer h.first, trimEndOf_point h.digits h.integer h.last hzeros]
    rcases h.spelled with hs | ⟨hs, hnone⟩
    · rw [if_neg (h.point (by simp [hs])), hs]
    · rw [if_pos hnone, hs]
  refine ⟨_, htext, ?_⟩
  have hdenotes : Denotes s (positional (whole.length - 1) (whole ++ places)) :=
    ⟨whole, places, h.toDecimal, rfl⟩
  refine hdenotes.unique ?_
  conv_lhs => rw [htext]
  exact Binary64.denotes_shortText limit _

end Text

namespace Binary64

variable {s t : Text} {places : Nat} {x y : ℚ}

def signedText (places : Nat) (k : Int) : Text :=
  if k < 0 then '-' :: shortText places k.natAbs else shortText places k.natAbs

theorem numeral_signedText (places : Nat) (k : Int) :
    Text.Numeral places (signedText places k) (k / 10 ^ places) := by
  obtain ⟨whole, kept, hshort, hvalue⟩ := short_shortText places k.natAbs
  rw [signedText]
  split_ifs with hk
  · have hcast : (k : ℚ) / 10 ^ places = -(k.natAbs / 10 ^ places) := by
      rw [← neg_div]
      congr 1
      exact_mod_cast (by omega : k = -(k.natAbs : Int))
    have hpos : (0 : ℚ) < k.natAbs / 10 ^ places := by
      have hnat : (0 : ℚ) < k.natAbs := by exact_mod_cast (by omega : 0 < k.natAbs)
      positivity
    rw [hcast, ← hvalue]
    exact .negative hshort (by rwa [hvalue])
  · obtain ⟨units, rfl⟩ := Int.eq_ofNat_of_zero_le (not_lt.mp hk)
    rw [Int.cast_natCast]
    rw [Int.natAbs_natCast] at hshort hvalue
    rw [Int.natAbs_natCast, ← hvalue]
    exact .unsigned hshort

theorem eq_signedText (h : Text.Numeral places s x) :
    ∃ k : Int, s = signedText places k ∧ x = k / 10 ^ places := by
  cases h with
  | unsigned hshort =>
    obtain ⟨units, hs, hvalue⟩ := hshort.eq_shortText
    refine ⟨units, ?_, by rw [hvalue, Int.cast_natCast]⟩
    rw [signedText, if_neg (by omega), Int.natAbs_natCast, hs]
  | negative hshort hpos =>
    obtain ⟨units, hs, hvalue⟩ := hshort.eq_shortText
    have hunits : units ≠ 0 := by
      intro hzero
      rw [hvalue, hzero] at hpos
      simp at hpos
    refine ⟨-units, ?_, by rw [hvalue, Int.cast_neg, Int.cast_natCast, neg_div]⟩
    rw [signedText, if_pos (by omega), Int.natAbs_neg, Int.natAbs_natCast, hs]

theorem shortText_injective {m n : Nat} (h : shortText places m = shortText places n) : m = n := by
  have hm := denotes_shortText places m
  rw [h] at hm
  have hvalue := hm.unique (denotes_shortText places n)
  have hten : (10 : ℚ) ^ places ≠ 0 := by positivity
  exact_mod_cast (div_left_inj' hten).mp hvalue

theorem signedText_injective {j k : Int} (h : signedText places j = signedText places k) :
    j = k := by
  rw [signedText, signedText] at h
  split_ifs at h with hj hk hk
  · have habs := shortText_injective (List.cons.inj h).2
    omega
  · exact absurd h.symm (shortText_ne _ _ _)
  · exact absurd h (shortText_ne _ _ _)
  · have habs := shortText_injective h
    omega

theorem numeral_spelling (hs : Text.Numeral places s x) (ht : Text.Numeral places t x) : s = t := by
  obtain ⟨j, rfl, hj⟩ := eq_signedText hs
  obtain ⟨k, rfl, hk⟩ := eq_signedText ht
  have hten : (10 : ℚ) ^ places ≠ 0 := by positivity
  rw [hj, div_left_inj' hten] at hk
  rw [Int.cast_injective hk]

theorem numeral_number (hx : Text.Numeral places s x) (hy : Text.Numeral places s y) : x = y := by
  obtain ⟨j, hs, rfl⟩ := eq_signedText hx
  obtain ⟨k, hs', rfl⟩ := eq_signedText hy
  rw [signedText_injective (hs.symm.trans hs')]

/-! Rounding of numbers that may be negative. -/

/-- The integer nearest to `x`; of two that are equally near, the even one. -/
structure Nearest (x : ℚ) (k : Int) : Prop where
  near : |x - k| ≤ 1 / 2
  even : |x - k| = 1 / 2 → k % 2 = 0

theorem Nearest.neg {k : Int} (h : Nearest x k) : Nearest (-x) (-k) := by
  have hdistance : |-x - (-k : Int)| = |x - k| := by
    rw [Int.cast_neg, ← abs_neg]
    congr 1
    ring
  refine ⟨by rw [hdistance]; exact h.near, fun heq => ?_⟩
  rw [hdistance] at heq
  have heven := h.even heq
  omega

theorem Nearest.ofNat {k : Nat} (h : RoundsTo x k) : Nearest x k :=
  ⟨by exact_mod_cast h.near, fun heq => by
    have heven := h.even (by exact_mod_cast heq)
    omega⟩

theorem Nearest.le {j k : Int} (hj : Nearest x j) (hk : Nearest x k) : j ≤ k := by
  by_contra hlt
  have hle : (k : ℚ) + 1 ≤ j := by exact_mod_cast Int.not_le.mp hlt
  have hnearJ := abs_le.mp hj.near
  have hnearK := abs_le.mp hk.near
  -- both are as near as can be without being the nearest, and neighbours are not both even
  have hjeven : j % 2 = 0 := hj.even (by rw [abs_sub_comm, abs_of_nonneg] <;> linarith)
  have hkeven : k % 2 = 0 := hk.even (by rw [abs_of_nonneg] <;> linarith)
  have hnext : j = k + 1 := by
    have hcast : (j : ℚ) = k + 1 := by linarith
    exact_mod_cast hcast
  omega

theorem Nearest.unique {j k : Int} (hj : Nearest x j) (hk : Nearest x k) : j = k :=
  le_antisymm (hj.le hk) (hk.le hj)

theorem fractionText_eq {x : Float} {v : ℚ} (h : (ofFloat x).value? = some v) :
    ∃ k, Nearest (v * 10 ^ 5) k ∧ fractionText x = signedText 5 k := by
  obtain ⟨negative, m, e, hfloat⟩ : ∃ negative m e, ofFloat x = .finite negative m e := by
    generalize ofFloat x = b at h
    cases b with
    | nan => cases h
    | infinite => cases h
    | finite negative m e => exact ⟨negative, m, e, rfl⟩
  have hround := Nearest.ofNat (roundsTo_roundedUnits 5 m e)
  have hfixed := congrArg (fixedText 5) hfloat
  rw [hfloat, value?, Option.some_inj] at h
  rw [fractionText, hfixed, fixedText]
  generalize roundedUnits 5 m e = units at *
  cases negative with
  | false =>
    have hsigned : signedText 5 units = shortText 5 units := if_neg (by omega)
    refine ⟨units, by rw [← h]; exact hround, ?_⟩
    rw [hsigned]
    exact if_neg (shortText_ne 5 units ['0'])
  | true =>
    have hshort : Text.trimEndOf '.' (Text.trimEndOf '0' (['-'] ++ unitsText 5 units)) =
        '-' :: shortText 5 units := by
      rw [List.singleton_append, Text.trimEndOf_cons (by decide), Text.trimEndOf_cons (by decide),
        shortText]
    refine ⟨-units, by rw [← h]; simpa using hround.neg, ?_⟩
    rw [if_pos rfl, hshort]
    have hzero : shortText 5 0 = ['0'] := by decide
    by_cases hunits : units = 0
    · subst hunits
      rw [hzero]
      decide
    · have hne : '-' :: shortText 5 units ≠ ['-', '0'] := by
        rw [← hzero]
        exact fun heq => hunits (shortText_injective (List.cons.inj heq).2)
      have hsigned : signedText 5 (-units) = '-' :: shortText 5 units := by
        have hneg : -(units : Int) < 0 := by omega
        rw [signedText, if_pos hneg, Int.natAbs_neg, Int.natAbs_natCast]
      rw [hsigned]
      exact if_neg hne

/-- A finite number is written as the one canonical numeral of the number rounded to five places, a
tie going to the even one. So numbers are told apart exactly as far as their rounded numbers are,
and the opposite number is written as the opposite of what is written. -/
theorem fractionText_canonical {x y : Float} (hx : x.isFinite = true) (hy : y.isFinite = true) :
    ∃ v w, (ofFloat x).value? = some v ∧ (ofFloat y).value? = some w ∧
      (∃ k, Nearest (v * 10 ^ 5) k ∧ ∀ s, Text.Numeral 5 s (k / 10 ^ 5) ↔ s = fractionText x) ∧
      (fractionText x = fractionText y ↔ ∃ k, Nearest (v * 10 ^ 5) k ∧ Nearest (w * 10 ^ 5) k) ∧
      ∀ r, Text.Numeral 5 (fractionText x) r → Text.Numeral 5 (fractionText (-x)) (-r) := by
  obtain ⟨v, hv⟩ := isFinite_iff.mp hx
  obtain ⟨w, hw⟩ := isFinite_iff.mp hy
  obtain ⟨j, hj, htextX⟩ := fractionText_eq hv
  obtain ⟨k, hk, htextY⟩ := fractionText_eq hw
  have hnumeral := numeral_signedText 5 j
  rw [← htextX] at hnumeral
  refine ⟨v, w, hv, hw, ⟨j, hj, fun s => ⟨fun hs => numeral_spelling hs hnumeral, ?_⟩⟩,
    ⟨fun hsame => ?_, fun hsame => ?_⟩, fun r hr => ?_⟩
  · intro hs
    rwa [hs]
  · rw [htextX, htextY] at hsame
    exact ⟨j, hj, signedText_injective hsame ▸ hk⟩
  · obtain ⟨l, hlx, hly⟩ := hsame
    rw [htextX, htextY, hj.unique hlx, hk.unique hly]
  · have hneg : (ofFloat (-x)).value? = some (-v) := by rw [value?_neg, hv, Option.map_some]
    obtain ⟨l, hl, htextNeg⟩ := fractionText_eq hneg
    rw [neg_mul] at hl
    rw [htextNeg, hl.unique hj.neg, numeral_number hr hnumeral, ← neg_div, ← Int.cast_neg]
    exact numeral_signedText 5 (-j)

theorem fractionText_canonical_hundred : Float.isFinite (-0.000001) = true ∧
    Float.isFinite 100.0 = true ∧ fractionText (-0.000001) = ['0'] ∧
    fractionText 100.0 = "100".toList ∧ ∃ v w, (ofFloat (-0.000001)).value? = some v ∧
      (ofFloat 100.0).value? = some w ∧ ¬∃ k, Nearest (v * 10 ^ 5) k ∧ Nearest (w * 10 ^ 5) k := by
  have hx : Float.isFinite (-0.000001) = true := by decide +kernel
  have hy : Float.isFinite 100.0 = true := by decide +kernel
  have htextX : fractionText (-0.000001) = ['0'] := by decide +kernel
  have htextY : fractionText 100.0 = "100".toList := by decide +kernel
  obtain ⟨v, w, hv, hw, -, hsame, -⟩ := fractionText_canonical hx hy
  rw [htextX, htextY] at hsame
  exact ⟨hx, hy, htextX, htextY, v, w, hv, hw, fun h => absurd (hsame.mpr h) (by decide)⟩

end Binary64
end Quizdown
