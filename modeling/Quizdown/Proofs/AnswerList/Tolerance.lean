import Quizdown.Proofs.AnswerList.Decision
import Quizdown.Proofs.AnswerList.Number
import Quizdown.Proofs.Decimal.Reading

/-! The answer of a numerical question: its text is the value that was written, its tolerance the
float nearest to the number behind the plus-minus sign, if the digits of that number are ASCII. -/
set_option autoImplicit false

namespace Quizdown
namespace NumericAnswer

open Text

inductive IsLiteral (digit : Char → Bool) : Text → Prop
  | positive {s : Text} (decimal : IsDecimal digit s) : IsLiteral digit s
  | negative {s : Text} (decimal : IsDecimal digit s) : IsLiteral digit ('-' :: s)

def Ascii (s : Text) : Prop := ∀ c ∈ s, isDecimalDigit c = true → c.isDigit = true

variable {s w : Text} {n : NumericAnswer}

theorem ascii_iff (h : IsDecimal isDecimalDigit w) : IsDecimal Char.isDigit w ↔ Ascii w := by
  refine ⟨fun hdigit c hc hdecimal => ?_, fun hascii => h.mono hascii⟩
  refine (hdigit.mem c hc).resolve_right ?_
  rintro rfl
  exact absurd (isDecimalDigit_point.symm.trans hdecimal) Bool.false_ne_true

/-- A decimal is read as a number exactly if its digits are ASCII. -/
theorem isSome_denotation?_iff (h : IsDecimal isDecimalDigit w) :
    (denotation? w).isSome = true ↔ Ascii w := by
  constructor
  · intro hread
    have htake : ∀ c ∈ w.takeWhile Char.isDigit, c.isDigit = true :=
      fun c hc => List.mem_takeWhile_imp hc
    have hsplit : w.takeWhile Char.isDigit ++ w.dropWhile Char.isDigit = w :=
      List.takeWhile_append_dropWhile
    rw [denotation?] at hread
    intro c hc hdigit
    rw [← hsplit, List.mem_append] at hc
    refine hc.elim (htake c) fun hc => ?_
    generalize w.dropWhile Char.isDigit = rest at *
    split at hread
    · cases hc
    · rename_i places
      split_ifs at hread with hall
      · rcases List.mem_cons.mp hc with rfl | hc
        · exact absurd (isDecimalDigit_point.symm.trans hdigit) Bool.false_ne_true
        · exact List.all_eq_true.mp hall c hc
      · cases hread
    · cases hread
  · intro hascii
    obtain ⟨x, hx⟩ := isDecimal_isDigit_iff.mp ((ascii_iff h).mpr hascii)
    obtain ⟨digits, exponent, hread, -⟩ := hx.denotation?
    rw [hread]
    rfl

/-! What the parts of an answer become. -/

theorem Spells.value (h : Spells s n) : IsSigned isDecimalDigit n.value := by
  cases h with
  | alone signed => exact signed
  | within signed => exact signed

theorem Spells.tolerance (h : Spells s n) (hw : n.tolerance = some w) :
    IsDecimal isDecimalDigit w := by
  cases h with
  | alone => cases hw
  | within _ _ decimal =>
    cases hw
    exact decimal

theorem shownValue_of_isSigned (h : IsSigned isDecimalDigit n.value) :
    ∃ w, IsDecimal isDecimalDigit w ∧ ((n.value = w ∨ n.value = '+' :: w) ∧ n.shownValue = w ∨
      n.value = '-' :: w ∧ n.shownValue = '-' :: w) := by
  have hdrop {w : Text} (hw : IsDecimal isDecimalDigit w) : w.dropWhile (· == '+') = w := by
    obtain ⟨c, t, rfl⟩ := List.exists_cons_of_ne_nil hw.ne_nil
    simp [(ne_sign_of_mem hw List.mem_cons_self).1]
  obtain ⟨value, tolerance⟩ := n
  simp only [shownValue] at h ⊢
  cases h with
  | bare decimal => exact ⟨_, decimal, .inl ⟨.inl rfl, hdrop decimal⟩⟩
  | @plus w decimal => exact ⟨w, decimal, .inl ⟨.inr rfl, hdrop decimal⟩⟩
  | @minus w decimal => exact ⟨w, decimal, .inr ⟨rfl, rfl⟩⟩

theorem ascii_cons {c : Char} (hc : isDecimalDigit c = false) : Ascii (c :: w) ↔ Ascii w := by
  simp [Ascii, hc]

theorem isLiteral_shownValue (h : IsSigned isDecimalDigit n.value) :
    IsLiteral isDecimalDigit n.shownValue ∧
      (IsLiteral Char.isDigit n.shownValue ↔ Ascii n.value) := by
  obtain ⟨w, decimal, ⟨hvalue, hshown⟩ | ⟨hvalue, hshown⟩⟩ := shownValue_of_isSigned h
  · have hascii : Ascii n.value ↔ Ascii w := by
      rcases hvalue with hvalue | hvalue
      · rw [hvalue]
      · rw [hvalue, ascii_cons isDecimalDigit_plus]
    rw [hshown, hascii, ← ascii_iff decimal]
    refine ⟨.positive decimal, fun hliteral => ?_, .positive⟩
    cases hliteral with
    | positive hdigit => exact hdigit
    | negative => exact absurd rfl (ne_sign_of_mem decimal List.mem_cons_self).2
  · rw [hshown, hvalue, ascii_cons isDecimalDigit_minus, ← ascii_iff decimal]
    refine ⟨.negative decimal, fun hliteral => ?_, .negative⟩
    cases hliteral with
    | positive hdigit => exact absurd (hdigit.mem '-' List.mem_cons_self) (by decide)
    | negative hdigit => exact hdigit

theorem toleranceValue_of_denotes {x : ℚ} (hw : n.tolerance = some w) (hx : Denotes w x) :
    Binary64.NearestTo x (Binary64.ofFloat n.toleranceValue) := by
  obtain ⟨digits, exponent, hread, rfl⟩ := hx.denotation?
  have hvalue : n.toleranceValue = Binary64.ofDecimal digits exponent := by
    simp [toleranceValue, hw, hread]
  rw [hvalue]
  exact Binary64.nearestTo_ofDecimal digits exponent

/-- A tolerance is zero if none is written, none can be read, or the number has no float but zero
near it. -/
theorem toleranceValue_eq_zero_iff (h : Spells s n) : n.toleranceValue = 0.0 ↔
    ∀ w, n.tolerance = some w → Ascii w → ∃ x, Denotes w x ∧ x ≤ 2 ^ (-1075 : Int) := by
  cases hw : n.tolerance with
  | none => simp [toleranceValue, hw]
  | some w =>
    have decimal := h.tolerance hw
    by_cases hascii : Ascii w
    · obtain ⟨x, hx⟩ := isDecimal_isDigit_iff.mp ((ascii_iff decimal).mpr hascii)
      have hnear := toleranceValue_of_denotes hw hx
      rw [← Binary64.ofFloat_eq_zero_iff]
      constructor
      · intro hzero
        rw [hzero] at hnear
        intro w' hw'
        cases hw'
        exact fun _ => ⟨x, hx, Binary64.le_of_nearestTo_zero hnear⟩
      · intro hsmall
        obtain ⟨y, hy, hle⟩ := hsmall w rfl hascii
        rw [hy.unique hx] at hle
        exact hnear.eq_zero hx.nonneg hle
    · have hnone : denotation? w = none := by
        rw [← Option.not_isSome_iff_eq_none, isSome_denotation?_iff decimal]
        exact hascii
      have hzero : n.toleranceValue = 0.0 := by simp [toleranceValue, hw, hnone]
      refine iff_of_true hzero fun w' hw' hascii' => ?_
      cases hw'
      exact absurd hascii' hascii

end NumericAnswer

namespace AnswerList

variable {list : AnswerList} {forceMulti : Bool} {separator : Text} {c : Classification}

theorem classify_single (hfilled : list.Filled) (hplain : list.boxes = 0)
    (hunordered : list.ordered = false) {item : Item} (hitem : list.items = [item]) :
    list.classify forceMulti separator = .ok item.single := by
  have hpaired : ¬ list.Paired separator := fun hpaired => by
    simpa [hitem] using hpaired.1
  rw [classify_unpaired hfilled hplain hpaired, hunordered, hitem]
  rfl

theorem single_of_spells {item : Item} {n : NumericAnswer} (h : NumericAnswer.Spells item.text n) :
    item.single = ⟨.numerical,
      [{ text := n.shownValue, fraction := 100.0, tolerance := some n.toleranceValue }]⟩ := by
  rw [Item.single, NumericAnswer.ofText?_eq_some_iff.mpr h]

theorem classify_of_spells {item : Item} {n : NumericAnswer}
    (hspells : NumericAnswer.Spells item.text n)
    (hplain : item.checked = none)
    (hc : classify ⟨false, [item]⟩ forceMulti separator = .ok c) :
    c = ⟨.numerical,
      [{ text := n.shownValue, fraction := 100.0, tolerance := some n.toleranceValue }]⟩ := by
  obtain ⟨hne, hblank, -⟩ := classify_eq_ok hc
  have hboxes : boxes ⟨false, [item]⟩ = 0 := by simp [boxes, hplain]
  rw [classify_single ⟨hne, hblank⟩ hboxes rfl rfl, single_of_spells hspells] at hc
  cases hc
  rfl

theorem spells_of_numerical (h : list.classify forceMulti separator = .ok c)
    (hkind : c.kind = .numerical) :
    list.ordered = false ∧ ∃ item n, list.items = [item] ∧ NumericAnswer.Spells item.text n ∧
      c.answers =
        [{ text := n.shownValue, fraction := 100.0, tolerance := some n.toleranceValue }] := by
  have houtcome : list.outcome forceMulti separator = .ok .numerical := by
    rw [outcome, h, ← hkind]
    rfl
  obtain ⟨hfilled, hplain, hunordered, item, hitem, hnumber⟩ := outcome_eq_iff.mp houtcome
  obtain ⟨n, hn⟩ := Option.isSome_iff_exists.mp hnumber
  have hspells := NumericAnswer.ofText?_eq_some_iff.mp hn
  have hsingle : list.classify forceMulti separator = .ok item.single :=
    classify_single hfilled hplain hunordered hitem
  rw [h, single_of_spells hspells] at hsingle
  cases hsingle
  exact ⟨hunordered, item, n, hitem, hspells, rfl⟩

end AnswerList

end Quizdown
