import Quizdown.Decimal.Fixed
import Quizdown.Numeric
import Mathlib.Algebra.Order.Field.Power
import Mathlib.Algebra.Order.Field.Rat
import Mathlib.Data.List.TakeWhile
import Mathlib.Tactic.Positivity
import Mathlib.Tactic.Ring

/-! Decimals as texts, and the number that a decimal in ASCII digits denotes: each digit stands for
its multiple of a power of ten. A decimal that is read, and one that is written with a fixed number
of places and then shortened, denote the number they should. -/
set_option autoImplicit false

namespace Quizdown
namespace Text

/-- The text is made of these digits before a point and those after it, one at least; without
digits after it the point may be missing. -/
structure Decimal (digit : Char → Bool) (s whole places : Text) : Prop where
  spelled : s = whole ++ '.' :: places ∨ s = whole ∧ places = []
  digits : ∀ c ∈ whole ++ places, digit c = true
  nonempty : whole ++ places ≠ []

def IsDecimal (digit : Char → Bool) (s : Text) : Prop := ∃ whole places, Decimal digit s whole places

/-- The sum of the digits, of which the first counts units of `10 ^ exponent`, and each of the
others a tenth of the unit before it. -/
def positional (exponent : Int) : Text → ℚ
  | [] => 0
  | c :: s => (c.toNat - '0'.toNat : Nat) * 10 ^ exponent + positional (exponent - 1) s

def Denotes (s : Text) (x : ℚ) : Prop :=
  ∃ whole places, Decimal Char.isDigit s whole places ∧
    x = positional (whole.length - 1) (whole ++ places)

variable {digit digit' : Char → Bool} {s t whole places : Text} {x y : ℚ}

theorem IsDecimal.mono (h : IsDecimal digit s)
    (hdigit : ∀ c ∈ s, digit c = true → digit' c = true) : IsDecimal digit' s := by
  obtain ⟨whole, places, hspelled, hdigits, hsome⟩ := h
  refine ⟨whole, places, hspelled, fun c hc => hdigit c ?_ (hdigits c hc), hsome⟩
  rw [List.mem_append] at hc
  rcases hspelled with rfl | ⟨rfl, rfl⟩
  · rw [List.mem_append, List.mem_cons]
    tauto
  · simpa using hc

theorem IsDecimal.mem (h : IsDecimal digit s) : ∀ c ∈ s, digit c = true ∨ c = '.' := by
  obtain ⟨whole, places, hspelled, hdigits, -⟩ := h
  rw [List.forall_mem_append] at hdigits
  rcases hspelled with rfl | ⟨rfl, rfl⟩
  · intro c hc
    rw [List.mem_append, List.mem_cons] at hc
    rcases hc with hc | hc | hc
    · exact .inl (hdigits.1 c hc)
    · exact .inr hc
    · exact .inl (hdigits.2 c hc)
  · exact fun c hc => .inl (hdigits.1 c hc)

theorem IsDecimal.ne_nil (h : IsDecimal digit s) : s ≠ [] := by
  obtain ⟨whole, places, hspelled, -, hsome⟩ := h
  rcases hspelled with rfl | ⟨rfl, rfl⟩
  · simp
  · simpa using hsome

theorem positional_append (e : Int) (s t : Text) :
    positional e (s ++ t) = positional e s + positional (e - s.length) t := by
  induction s generalizing e with
  | nil => simp [positional]
  | cons c s ih =>
    have hexponent : e - 1 - (s.length : Int) = e - ((c :: s).length : Int) := by
      rw [List.length_cons]
      omega
    rw [List.cons_append, positional, positional, ih, hexponent, add_assoc]

theorem positional_eq_zero (h : ∀ c ∈ s, c = '0') (e : Int) : positional e s = 0 := by
  induction s generalizing e with
  | nil => rfl
  | cons c s ih =>
    rw [List.forall_mem_cons] at h
    simp [positional, h.1, ih h.2]

theorem positional_nonneg (e : Int) (s : Text) : 0 ≤ positional e s := by
  induction s generalizing e with
  | nil => exact le_rfl
  | cons c s ih => exact add_nonneg (by positivity) (ih _)

theorem Denotes.nonneg (h : Denotes s x) : 0 ≤ x := by
  obtain ⟨whole, places, -, rfl⟩ := h
  exact positional_nonneg ..

theorem isDecimal_isDigit_iff : IsDecimal Char.isDigit s ↔ ∃ x, Denotes s x := by
  constructor
  · rintro ⟨whole, places, h⟩
    exact ⟨_, whole, places, h, rfl⟩
  · rintro ⟨x, whole, places, h, -⟩
    exact ⟨whole, places, h⟩

/-! A numeral is read from the left, ten times what was read and the next digit. -/

theorem sub_lt_ten {c : Char} (hc : c.isDigit = true) : c.toNat - '0'.toNat < 10 := by
  have hzero : '0'.toNat = 48 := rfl
  have hnine : '9'.toNat = 57 := rfl
  rw [Char.isDigit_iff_toNat] at hc
  omega

theorem digit?_ten {c : Char} (h : c.isDigit = true) :
    digit? 10 c = some (c.toNat - '0'.toNat) := by
  have hten := sub_lt_ten h
  rw [Char.isDigit_iff_toNat] at h
  have hrange : '0' ≤ c ∧ c ≤ '9' := by
    rw [Char.le_def, Char.le_def, UInt32.le_iff_toNat_le, UInt32.le_iff_toNat_le]
    exact h
  simpa [digit?, hrange, Option.filter] using hten

theorem numeral_concat {c : Char} (hc : c.isDigit = true) (s : Text) :
    numeral 10 (s ++ [c]) = 10 * numeral 10 s + (c.toNat - '0'.toNat) := by
  rw [numeral, numeral, List.foldl_append]
  simp [digit?_ten hc]

theorem positional_eq_numeral (h : ∀ c ∈ s, c.isDigit = true) (e : Int) :
    positional e s = numeral 10 s * 10 ^ (e + 1 - s.length) := by
  induction s using List.reverseRecOn with
  | nil => simp [positional, numeral]
  | append_singleton s c ih =>
    rw [List.forall_mem_append, List.forall_mem_singleton] at h
    have hten : (10 : ℚ) ^ (e + 1 - (s.length : Int)) = 10 * 10 ^ (e - (s.length : Int)) := by
      rw [← zpow_one_add₀ (by norm_num)]
      congr 1
      omega
    have hexponent : e + 1 - ((s ++ [c]).length : Int) = e - s.length := by
      rw [List.length_append, List.length_singleton]
      omega
    rw [positional_append, ih h.1, numeral_concat h.2, hten, hexponent, positional, positional]
    push_cast
    ring

namespace Decimal

theorem takeWhile (h : Decimal digit s whole places) (hpoint : digit '.' = false) :
    s.takeWhile digit = whole ∧ (s.dropWhile digit = '.' :: places ∨
      s.dropWhile digit = [] ∧ places = []) := by
  have hwhole : ∀ c ∈ whole, digit c = true := fun c hc => h.digits c (by simp [hc])
  rcases h.spelled with rfl | ⟨rfl, rfl⟩
  · rw [List.takeWhile_append_of_pos hwhole, List.dropWhile_append_of_pos hwhole]
    simp [hpoint]
  · rw [List.takeWhile_eq_self_iff.mpr hwhole, List.dropWhile_eq_nil_iff.mpr hwhole]
    exact ⟨rfl, .inr ⟨rfl, rfl⟩⟩

theorem denotation?_eq (h : Decimal Char.isDigit s whole places) :
    NumericAnswer.denotation? s = some (numeral 10 (whole ++ places), -(places.length : Int)) := by
  obtain ⟨htake, hdrop | ⟨hdrop, rfl⟩⟩ := h.takeWhile rfl
  · have hplaces : places.all Char.isDigit = true := by
      rw [List.all_eq_true]
      exact fun c hc => h.digits c (by simp [hc])
    simp only [NumericAnswer.denotation?, htake, hdrop, hplaces, if_true]
  · simp only [NumericAnswer.denotation?, htake, hdrop, List.append_nil, List.length_nil]
    rfl

theorem positional_eq (h : Decimal Char.isDigit s whole places) :
    positional (whole.length - 1) (whole ++ places) =
      numeral 10 (whole ++ places) * 10 ^ (-(places.length : Int)) := by
  rw [positional_eq_numeral h.digits]
  congr 2
  rw [List.length_append]
  omega

end Decimal

theorem Denotes.denotation? (h : Denotes s x) :
    ∃ digits exponent, NumericAnswer.denotation? s = some (digits, exponent) ∧
      x = digits * 10 ^ exponent := by
  obtain ⟨whole, places, hdecimal, rfl⟩ := h
  exact ⟨_, _, hdecimal.denotation?_eq, hdecimal.positional_eq⟩

theorem Denotes.unique (hx : Denotes s x) (hy : Denotes s y) : x = y := by
  obtain ⟨m, d, hm, rfl⟩ := hx.denotation?
  obtain ⟨n, e, hn, rfl⟩ := hy.denotation?
  rw [hm] at hn
  cases hn
  rfl

/-! A number that is written: the digits of its units, and the zeros that are left out. -/

theorem isDigit_of_mem_ofNat {n : Nat} : ∀ c ∈ ofNat n, c.isDigit = true :=
  fun _ hc => Nat.isDigit_of_mem_toDigits (by norm_num) le_rfl hc

theorem isDigit_of_mem_digits (n width : Nat) : ∀ c ∈ digits n width, c.isDigit = true := by
  induction width generalizing n with
  | zero => simp [digits]
  | succ width ih =>
    have hten : n % 10 < 10 := Nat.mod_lt n (by norm_num)
    rw [digits, List.forall_mem_append, List.forall_mem_singleton, Nat.isDigit_digitChar,
      decide_eq_true_eq]
    exact ⟨ih (n / 10), hten⟩

theorem length_digits (n width : Nat) : (digits n width).length = width := by
  induction width generalizing n with
  | zero => rfl
  | succ width ih => rw [digits, List.length_append, ih, List.length_singleton]

theorem numeral_ofNat (n : Nat) : numeral 10 (ofNat n) = n := by
  have hcore {s : Text} (h : ∀ c ∈ s, c.isDigit = true) :
      numeral 10 s = Nat.ofDigitChars 10 s 0 := by
    induction s using List.reverseRecOn with
    | nil => rfl
    | append_singleton s c ih =>
      rw [List.forall_mem_append, List.forall_mem_singleton] at h
      rw [numeral_concat h.2, ih h.1, Nat.ofDigitChars_eq_foldl, Nat.ofDigitChars_eq_foldl,
        List.foldl_append]
      rfl
  rw [hcore isDigit_of_mem_ofNat]
  exact Nat.ofDigitChars_toDigits (by norm_num) le_rfl

theorem numeral_append_digits (s : Text) (n width : Nat) :
    numeral 10 (s ++ digits n width) = numeral 10 s * 10 ^ width + n % 10 ^ width := by
  induction width generalizing n with
  | zero => simp [digits, Nat.mod_one]
  | succ width ih =>
    have hten : n % 10 < 10 := Nat.mod_lt n (by norm_num)
    have hdigit : (Nat.digitChar (n % 10)).isDigit = true := by
      rw [Nat.isDigit_digitChar, decide_eq_true_eq]
      exact hten
    have hvalue : (Nat.digitChar (n % 10)).toNat - '0'.toNat = n % 10 :=
      Nat.toNat_digitChar_sub_48_of_lt_ten hten
    rw [digits, ← List.append_assoc, numeral_concat hdigit, ih, hvalue, pow_succ',
      Nat.mod_mul (b := 10 ^ width)]
    ring

theorem trimEndOf_concat (c d : Char) (s : Text) :
    trimEndOf c (s ++ [d]) = if d = c then trimEndOf c s else s ++ [d] := by
  rw [trimEndOf, trimEndOf, List.reverse_append, List.reverse_singleton, List.singleton_append,
    List.dropWhile_cons]
  by_cases hsame : d = c
  · rw [if_pos hsame, if_pos (beq_iff_eq.mpr hsame)]
  · rw [if_neg hsame, if_neg fun hbeq => hsame (beq_iff_eq.mp hbeq), List.reverse_cons,
      List.reverse_reverse]

theorem trimEndOf_cons {c d : Char} (h : d ≠ c) (s : Text) :
    trimEndOf c (d :: s) = d :: trimEndOf c s := by
  induction s using List.reverseRecOn with
  | nil => rw [← List.nil_append [d], trimEndOf_concat, if_neg h]; rfl
  | append_singleton s e ih =>
    rw [← List.cons_append, trimEndOf_concat, trimEndOf_concat, ih]
    split_ifs <;> rfl

theorem trimEndOf_of_isDigit {c : Char} (hc : c.isDigit = true) (s : Text) :
    trimEndOf '.' (s ++ [c]) = s ++ [c] := by
  have hpoint : c ≠ '.' := by
    rintro rfl
    exact absurd hc (by decide)
  rw [trimEndOf_concat, if_neg hpoint]

theorem trimEndOf_append {c : Char} {t : Text} (ht : ∀ d ∈ t, d = c) (s : Text) :
    trimEndOf c (s ++ t) = trimEndOf c s := by
  induction t using List.reverseRecOn with
  | nil => rw [List.append_nil]
  | append_singleton t d ih =>
    rw [List.forall_mem_append, List.forall_mem_singleton] at ht
    rw [← List.append_assoc, trimEndOf_concat, if_pos ht.2, ih ht.1]

theorem trimEndOf_point {zeros : Text} (hdigits : ∀ c ∈ whole ++ places, c.isDigit = true)
    (hne : whole ≠ []) (hlast : places.getLast? ≠ some '0') (hzeros : ∀ c ∈ zeros, c = '0') :
    trimEndOf '.' (trimEndOf '0' (whole ++ '.' :: (places ++ zeros))) =
      if places = [] then whole else whole ++ '.' :: places := by
  rw [← List.cons_append, ← List.append_assoc, trimEndOf_append hzeros]
  rcases List.eq_nil_or_concat places with rfl | ⟨front, c, rfl⟩
  · rcases List.eq_nil_or_concat whole with rfl | ⟨front, d, rfl⟩
    · exact absurd rfl hne
    · rw [List.concat_eq_append] at *
      rw [if_pos rfl, trimEndOf_concat, if_neg (by decide), trimEndOf_concat, if_pos rfl,
        trimEndOf_of_isDigit (hdigits d (by simp))]
  · rw [List.concat_eq_append] at *
    have hzero : c ≠ '0' := by simpa using hlast
    rw [if_neg (by simp), ← List.cons_append, ← List.append_assoc, trimEndOf_concat, if_neg hzero,
      trimEndOf_of_isDigit (hdigits c (by simp))]

theorem exists_zeros (s : Text) :
    ∃ kept zeros, s = kept ++ zeros ∧ kept.getLast? ≠ some '0' ∧ ∀ c ∈ zeros, c = '0' := by
  induction s using List.reverseRecOn with
  | nil => exact ⟨[], [], by simp⟩
  | append_singleton s c ih =>
    by_cases hc : c = '0'
    · obtain ⟨kept, zeros, rfl, hlast, hzeros⟩ := ih
      exact ⟨kept, zeros ++ [c], by simp, hlast, by simpa [or_imp, forall_and] using ⟨hzeros, hc⟩⟩
    · exact ⟨s ++ [c], [], by simp [hc]⟩

theorem Denotes.mem (h : Denotes s x) : ∀ c ∈ s, c.isDigit = true ∨ c = '.' :=
  (isDecimal_isDigit_iff.mpr ⟨x, h⟩).mem

/-- A decimal in which nothing can be left out: only a single zero may begin it, the places do not
end with a zero, and without places there is no point. -/
structure Short (limit : Nat) (s whole places : Text) : Prop
    extends Decimal Char.isDigit s whole places where
  integer : whole ≠ []
  first : whole.head? = some '0' → whole = ['0']
  last : places.getLast? ≠ some '0'
  point : '.' ∈ s → places ≠ []
  few : places.length ≤ limit

theorem head?_ofNat {n : Nat} (h : (ofNat n).head? = some '0') : n = 0 := by
  induction n using Nat.strongRecOn with
  | ind n ih =>
    rcases Nat.lt_or_ge n 10 with hlt | hge
    · rw [ofNat, Nat.toDigits_of_lt_base hlt, List.head?_singleton, Option.some_inj] at h
      exact Nat.digitChar_eq_zero.mp h
    · rw [ofNat, Nat.toDigits_of_base_le (by norm_num) hge,
        List.head?_append_of_ne_nil _ Nat.toDigits_ne_nil] at h
      have hzero := ih (n / 10) (by omega) h
      omega

theorem isDigit_of_mem_units (n units width : Nat) :
    ∀ c ∈ ofNat n ++ digits units width, c.isDigit = true := by
  rw [List.forall_mem_append]
  exact ⟨isDigit_of_mem_ofNat, isDigit_of_mem_digits units width⟩

end Text

namespace Binary64

def shortText (places units : Nat) : Text :=
  Text.trimEndOf '.' (Text.trimEndOf '0' (unitsText places units))

theorem positional_unitsText (places units : Nat) :
    Text.positional ((Text.ofNat (units / tenTo places)).length - 1)
      (Text.ofNat (units / tenTo places) ++ Text.digits units places) = units / 10 ^ places := by
  have hten : tenTo places = 10 ^ places := rfl
  have hdigits := Text.isDigit_of_mem_units (units / tenTo places) units places
  have hvalue : (units / 10 ^ places * 10 ^ places + units % 10 ^ places : Nat) = units :=
    Nat.div_add_mod' ..
  rw [Text.positional_eq_numeral hdigits, Text.numeral_append_digits, Text.numeral_ofNat, hten,
    hvalue, List.length_append, Text.length_digits, div_eq_mul_inv, ← zpow_natCast, ← zpow_neg]
  congr 2
  omega

theorem short_shortText (places units : Nat) :
    ∃ whole kept, Text.Short places (shortText places units) whole kept ∧
      Text.positional (whole.length - 1) (whole ++ kept) = units / 10 ^ places := by
  have hunits := positional_unitsText places units
  have hdigits := Text.isDigit_of_mem_units (units / tenTo places) units places
  have hlength := Text.length_digits units places
  rw [shortText, unitsText]
  have hinteger : Text.ofNat (units / tenTo places) ≠ [] := Nat.toDigits_ne_nil
  have hfirst : (Text.ofNat (units / tenTo places)).head? = some '0' →
      Text.ofNat (units / tenTo places) = ['0'] := by
    intro hhead
    rw [Text.head?_ofNat hhead]
    rfl
  generalize Text.ofNat (units / tenTo places) = whole at *
  obtain ⟨kept, zeros, hsplit, hlast, hzeros⟩ := Text.exists_zeros (Text.digits units places)
  rw [hsplit, ← List.append_assoc] at hunits hdigits
  rw [List.forall_mem_append] at hdigits
  rw [hsplit, List.length_append] at hlength
  rw [hsplit, Text.trimEndOf_point hdigits.1 hinteger hlast hzeros]
  have hpoint : '.' ∉ whole := fun hmem => absurd (hdigits.1 '.' (by simp [hmem])) (by decide)
  have hne : whole ++ kept ≠ [] := by simp [hinteger]
  refine ⟨whole, kept, ⟨⟨?_, hdigits.1, hne⟩, hinteger, hfirst, hlast, ?_, by omega⟩, ?_⟩
  · split_ifs with hkept
    · exact .inr ⟨rfl, hkept⟩
    · exact .inl rfl
  · split_ifs with hkept
    · exact fun hmem => absurd hmem hpoint
    · exact fun _ => hkept
  · rw [← hunits, Text.positional_append _ (whole ++ kept), Text.positional_eq_zero hzeros,
      add_zero]

theorem denotes_shortText (places units : Nat) :
    Text.Denotes (shortText places units) (units / 10 ^ places) := by
  obtain ⟨whole, kept, hshort, hvalue⟩ := short_shortText places units
  exact ⟨whole, kept, hshort.toDecimal, hvalue.symm⟩

theorem shortText_ne (places units : Nat) (s : Text) : shortText places units ≠ '-' :: s := by
  intro heq
  have hmem := (denotes_shortText places units).mem '-' (by simp [heq])
  exact absurd hmem (by decide)

/-- The text of a percentage or tolerance denotes the number rounded to five places. -/
theorem denotes_fractionText {x : Float} {m : Nat} {e : Int}
    (h : ofFloat x = .finite false m e) :
    Text.Denotes (fractionText x) (roundedUnits 5 m e / 10 ^ 5) := by
  have htext : fractionText x = shortText 5 (roundedUnits 5 m e) := by
    rw [fractionText, h]
    exact if_neg (shortText_ne 5 _ _)
  rw [htext]
  exact denotes_shortText 5 _

end Binary64
end Quizdown
