import Quizdown.Proofs.AnswerList.Decision
import Quizdown.Proofs.Decimal.Arithmetic
import Quizdown.Proofs.Decimal.Reading
import Mathlib.Algebra.BigOperators.Fin
import Mathlib.Algebra.BigOperators.Field
import Mathlib.Algebra.Order.Field.Rat
import Mathlib.Tactic.FieldSimp
import Mathlib.Tactic.Linarith

/-! What a choice of options scores, with the credits as exact quotients, and the floats that these
are rounded to. -/
set_option autoImplicit false

namespace Quizdown

def Share.value (s : Share) : ℚ := s.num / s.den

namespace Share

open Binary64 (NearestTo IsNearest ofFloat)

/-- The float is the nearest to the quotient. Beyond `2 ^ 53` the denominator is rounded to a float
itself before it divides. -/
structure RoundsTo (s : Share) (x : Float) : Prop where
  nearest : s.den ≤ 2 ^ 53 → IsNearest s.value (ofFloat x)
  nearest_div : ∃ d, NearestTo s.den d ∧ ∀ v, d.value? = some v → IsNearest (s.num / v) (ofFloat x)

theorem roundsTo_toFloat {s : Share} (hden : s.den ≠ 0) (hnum : s.num.natAbs ≤ 2 ^ 53) :
    s.RoundsTo s.toFloat := by
  have hdivisor := Binary64.nearestTo_ofNat s.den
  have hquotient : ∀ v, (ofFloat (Float.ofNat s.den)).value? = some v →
      IsNearest (s.num / v) (ofFloat s.toFloat) := by
    intro v hv
    generalize hfloat : ofFloat (Float.ofNat s.den) = d at hdivisor hv
    cases hdivisor with
    | @finite m e canonical below near even =>
      have hm : 0 < m := by
        by_contra hzero
        obtain rfl : m = 0 := by omega
        have hsmall := Binary64.le_of_nearestTo_zero (.finite canonical below near even)
        have hone : (1 : ℚ) ≤ s.den := by exact_mod_cast Nat.pos_of_ne_zero hden
        have hlt : (2 : ℚ) ^ (-1075 : Int) < 1 := zpow_lt_one_of_neg₀ one_lt_two (by norm_num)
        linarith
      cases hv
      exact Binary64.isNearest_div hnum hfloat hm
    | infinite => cases hv
  refine ⟨fun hle => ?_, _, hdivisor, hquotient⟩
  obtain ⟨k, u, hfits, hvalue⟩ := Binary64.exists_fits_natCast hle
  rw [← hvalue] at hdivisor
  obtain ⟨m, e, hm, hsame⟩ := hdivisor.eq_magnitude hfits
  rw [value, ← hvalue, ← hsame]
  exact hquotient _ (by rw [hm]; rfl)

end Share

namespace Classification

def correct (c : Classification) : Finset (Fin c.answers.length) :=
  Finset.univ.filter fun i => c.answers[i].checked = true

/-- What the chosen options score, the right ones and the others having these credits. -/
def score (c : Classification) (right other : Share) (chosen : Finset (Fin c.answers.length)) : ℚ :=
  ∑ i ∈ chosen, (if c.answers[i].checked = true then right else other).value

structure AddsUp (c : Classification) (right other : Share) : Prop where
  right_sum : c.score right other c.correct = 100
  other_nonpos : other.value ≤ 0
  other_sum : c.score right other c.correctᶜ =
    if c.kind = .multipleChoice ∧ c.correctᶜ.Nonempty then -100 else 0
  all : c.kind = .multipleChoice → c.correctᶜ.Nonempty → c.score right other Finset.univ = 0
  le : ∀ chosen, c.score right other chosen ≤ 100
  eq_iff : c.kind = .multipleChoice →
    ∀ chosen, c.score right other chosen = 100 ↔ chosen = c.correct

variable {c : Classification} {right other : Share}

theorem score_eq (chosen : Finset (Fin c.answers.length)) : c.score right other chosen =
    (chosen ∩ c.correct).card * right.value + (chosen \ c.correct).card * other.value := by
  have hinter : chosen ∩ c.correct = chosen.filter fun i => c.answers[i].checked = true := by
    rw [correct, Finset.inter_filter, Finset.inter_univ]
  have hdiff : chosen \ c.correct = chosen.filter fun i => ¬ c.answers[i].checked = true := by
    ext i
    simp [correct]
  simp only [score, apply_ite Share.value]
  rw [Finset.sum_ite, Finset.sum_const, Finset.sum_const, nsmul_eq_mul, nsmul_eq_mul, hinter, hdiff]

section

variable (hsome : c.correct.card ≠ 0) (hright : right.value = 100 / c.correct.card)
include hsome hright

theorem right_part_le (chosen : Finset (Fin c.answers.length)) :
    (chosen ∩ c.correct).card * right.value ≤ 100 := by
  have hpos : (0 : ℚ) < c.correct.card := by exact_mod_cast Nat.pos_of_ne_zero hsome
  have hle : ((chosen ∩ c.correct).card : ℚ) ≤ c.correct.card := by
    exact_mod_cast Finset.card_le_card Finset.inter_subset_right
  rw [hright, mul_div_assoc', div_le_iff₀ hpos]
  linarith

theorem right_part_eq_iff (chosen : Finset (Fin c.answers.length)) :
    (chosen ∩ c.correct).card * right.value = 100 ↔ c.correct ⊆ chosen := by
  have hne : (c.correct.card : ℚ) ≠ 0 := by exact_mod_cast hsome
  rw [hright, mul_div_assoc', div_eq_iff hne, mul_comm, mul_right_inj' (by norm_num), Nat.cast_inj]
  constructor
  · intro hcard
    have hinter := Finset.eq_of_subset_of_card_le Finset.inter_subset_right hcard.ge
    rw [← hinter]
    exact Finset.inter_subset_left
  · intro hsubset
    rw [Finset.inter_eq_right.mpr hsubset]

end

section

variable (hother : other.value =
  if c.kind = .multipleChoice ∧ c.correctᶜ.Nonempty then (-100 : ℚ) / c.correctᶜ.card else 0)
include hother

theorem other_nonpos : other.value ≤ 0 := by
  rw [hother]
  split_ifs
  · exact div_nonpos_of_nonpos_of_nonneg (by norm_num) (Nat.cast_nonneg _)
  · exact le_refl 0

theorem other_part_le (chosen : Finset (Fin c.answers.length)) :
    (chosen \ c.correct).card * other.value ≤ 0 :=
  mul_nonpos_of_nonneg_of_nonpos (Nat.cast_nonneg _) (other_nonpos hother)

theorem other_part_eq_iff (hkind : c.kind = .multipleChoice)
    (chosen : Finset (Fin c.answers.length)) :
    (chosen \ c.correct).card * other.value = 0 ↔ chosen ⊆ c.correct := by
  rw [mul_eq_zero, Nat.cast_eq_zero, Finset.card_eq_zero, Finset.sdiff_eq_empty_iff_subset,
    or_iff_left_iff_imp]
  intro hzero i _
  by_contra hi
  have hwrong : c.correctᶜ.Nonempty := ⟨i, Finset.mem_compl.mpr hi⟩
  rw [hother, if_pos ⟨hkind, hwrong⟩, div_eq_zero_iff] at hzero
  rcases hzero with hzero | hzero
  · norm_num at hzero
  · exact hwrong.card_ne_zero (Nat.cast_eq_zero.mp hzero)

theorem other_sum : c.score right other c.correctᶜ =
    if c.kind = .multipleChoice ∧ c.correctᶜ.Nonempty then -100 else 0 := by
  rw [score_eq, Finset.inter_comm, Finset.inter_compl, Finset.sdiff_eq_inter_compl,
    Finset.inter_self, hother]
  split_ifs with hwrong
  · have hne : (c.correctᶜ.card : ℚ) ≠ 0 := Nat.cast_ne_zero.mpr hwrong.2.card_ne_zero
    simp [mul_div_cancel₀ _ hne]
  · simp

end

/-- One share of full credit for each right option, and one of the loss, if there is any, for each
of the others. -/
theorem addsUp (hsome : c.correct.card ≠ 0) (hright : right.value = 100 / c.correct.card)
    (hother : other.value =
      if c.kind = .multipleChoice ∧ c.correctᶜ.Nonempty then (-100 : ℚ) / c.correctᶜ.card
      else 0) :
    c.AddsUp right other := by
  have hright_sum : c.score right other c.correct = 100 := by
    have hfull := (right_part_eq_iff hsome hright c.correct).mpr (Finset.Subset.refl _)
    rw [score_eq, hfull, Finset.sdiff_self]
    simp
  refine ⟨hright_sum, other_nonpos hother, other_sum hother, ?_, fun chosen => ?_,
    fun hkind chosen => ?_⟩
  · intro hkind hwrong
    have hsplit : c.score right other Finset.univ =
        c.score right other c.correct + c.score right other c.correctᶜ :=
      (Finset.sum_add_sum_compl c.correct _).symm
    rw [hsplit, hright_sum, other_sum hother, if_pos ⟨hkind, hwrong⟩]
    norm_num
  · rw [score_eq]
    have hle := right_part_le hsome hright chosen
    have hloss := other_part_le hother chosen
    linarith
  · have hle := right_part_le hsome hright chosen
    have hloss := other_part_le hother chosen
    constructor
    · intro hfull
      rw [score_eq] at hfull
      have hright_all := (right_part_eq_iff hsome hright chosen).mp (by linarith)
      have hother_none := (other_part_eq_iff hother hkind chosen).mp (by linarith)
      exact hother_none.antisymm hright_all
    · rintro rfl
      exact hright_sum

theorem card_correct (c : Classification) : c.correct.card = c.answers.countP Answer.checked := by
  have hsum (answers : List Answer) :
      (answers.map fun a => if a.checked = true then 1 else 0).sum =
        answers.countP Answer.checked := by
    induction answers with
    | nil => rfl
    | cons a answers ih =>
      rw [List.map_cons, List.sum_cons, ih, List.countP_cons, Nat.add_comm]
  rw [correct, Finset.card_filter, ← hsum]
  exact Fin.sum_univ_fun_getElem c.answers fun a => if a.checked = true then 1 else 0

theorem card_compl_correct (c : Classification) :
    c.correctᶜ.card = c.answers.length - c.correct.card := by
  rw [Finset.card_compl, Fintype.card_fin]

end Classification

namespace AnswerList

variable {list : AnswerList} {forceMulti : Bool} {separator : Text} {c : Classification}

theorem choice_of_classify (h : list.classify forceMulti separator = .ok c)
    (hchoice : c.kind.isChoice = true) : choice list.items forceMulti = .ok c := by
  obtain ⟨-, -, ⟨-, answers, -, rfl⟩ | ⟨-, rfl⟩ | ⟨item, -, rfl⟩ | hc⟩ := classify_eq_ok h
  · cases hchoice
  · cases hchoice
  · rw [Item.kind_single] at hchoice
    split_ifs at hchoice <;> cases hchoice
  · exact hc

def unticked (list : AnswerList) : Nat :=
  list.items.countP fun item => item.checked != some true

theorem length_sub_ticks (list : AnswerList) : list.items.length - list.ticks = list.unticked := by
  rw [ticks, unticked, List.length_eq_countP_add_countP (fun item => item.checked == some true),
    Nat.add_sub_cancel_left]
  exact List.countP_congr fun item _ => by simp

theorem value_credits {kind : Kind} (hsome : list.ticks ≠ 0)
    (hkind : kind =
      if list.ticks = 1 ∧ forceMulti = false then .singleChoice else .multipleChoice) :
    (credits kind list.ticks list.unticked).1.value = 100 / list.ticks ∧
      (credits kind list.ticks list.unticked).2.value =
        (if kind = .multipleChoice ∧ list.unticked ≠ 0 then (-100 : ℚ) / list.unticked else 0) ∧
      (credits kind list.ticks list.unticked).1.den ≠ 0 ∧
      (credits kind list.ticks list.unticked).2.den ≠ 0 := by
  by_cases hsingle : list.ticks = 1 ∧ forceMulti = false
  · rw [if_pos hsingle] at hkind
    simp [hkind, credits, Share.value, hsingle.1]
  · rw [if_neg hsingle] at hkind
    by_cases hnone : list.unticked = 0 <;> simp [hkind, credits, Share.value, hsome, hnone]

theorem credits_le (kind : Kind) (hsome : list.ticks ≠ 0) :
    ((credits kind list.ticks list.unticked).1.num.natAbs ≤ 2 ^ 53 ∧
        (credits kind list.ticks list.unticked).1.den ≤ list.items.length) ∧
      (credits kind list.ticks list.unticked).2.num.natAbs ≤ 2 ^ 53 ∧
        (credits kind list.ticks list.unticked).2.den ≤ list.items.length := by
  have hticks : list.ticks ≤ list.items.length := List.countP_le_length
  have hunticked : list.unticked ≤ list.items.length := List.countP_le_length
  rw [credits]
  split_ifs <;> norm_num <;> omega

end AnswerList

/-- The right options of a choice question share full credit, and no choice of options is worth
more. In multiple choice the wrong options, if there are any, share the same loss, so that choosing
everything is worth nothing and only the right options together are worth full credit. In single
choice a wrong option is worth nothing. The fraction of an answer is its share as the nearest
float. -/
theorem choice_scoring {list : AnswerList} {forceMulti : Bool} {separator : Text}
    {c : Classification} (h : list.classify forceMulti separator = .ok c)
    (hchoice : c.kind.isChoice = true) :
    ∃ right other : Share, right.den ≠ 0 ∧ other.den ≠ 0 ∧
      right.den ≤ list.items.length ∧ other.den ≤ list.items.length ∧
      right.value = 100 / list.ticks ∧
      other.value = (if c.kind = .multipleChoice ∧ list.unticked ≠ 0
        then (-100 : ℚ) / list.unticked else 0) ∧
      c.answers.length = list.items.length ∧
      (∀ (i : Nat) (a : Answer) (item : Item), c.answers[i]? = some a →
        list.items[i]? = some item → a.checked = (item.checked == some true) ∧
          a.fraction = (if a.checked = true then right else other).toFloat ∧
          (if a.checked = true then right else other).RoundsTo a.fraction) ∧
      c.AddsUp right other := by
  obtain ⟨hsome, hkind, hanswers⟩ :=
    AnswerList.choice_eq_ok (AnswerList.choice_of_classify h hchoice)
  rw [AnswerList.length_sub_ticks] at hanswers
  obtain ⟨hright, hother, hrightDen, hotherDen⟩ := AnswerList.value_credits hsome hkind
  obtain ⟨⟨hrightNum, hrightLe⟩, hotherNum, hotherLe⟩ := AnswerList.credits_le c.kind hsome
  -- from here on the credits are two shares of which only the values are known
  generalize AnswerList.credits c.kind list.ticks list.unticked = shares at *
  have hlength : c.answers.length = list.items.length := by rw [hanswers, List.length_map]
  have hcorrect : c.correct.card = list.ticks := by
    rw [Classification.card_correct, hanswers, List.countP_map]
    rfl
  have hwrong : c.correctᶜ.card = list.unticked := by
    rw [Classification.card_compl_correct, hcorrect, hlength, AnswerList.length_sub_ticks]
  refine ⟨shares.1, shares.2, hrightDen, hotherDen, hrightLe, hotherLe, hright, hother, hlength,
    ?_, ?_⟩
  · intro i a item ha hitem
    rw [hanswers, List.getElem?_map, hitem] at ha
    cases ha
    refine ⟨rfl, rfl, ?_⟩
    rw [Item.option]
    cases item.checked == some true
    · exact Share.roundsTo_toFloat hotherDen hotherNum
    · exact Share.roundsTo_toFloat hrightDen hrightNum
  · refine Classification.addsUp (by rwa [hcorrect]) (by rw [hright, hcorrect]) ?_
    simp only [hother, ← hwrong, Finset.card_ne_zero]

theorem choice_scoring_two_of_three :
    let item (checked : Bool) : Item := ⟨"a".toList, "a".toList, some checked⟩
    let list : AnswerList := ⟨false, [item true, item false, item true]⟩
    ∃ c right other, list.classify false ":".toList = .ok c ∧ c.kind.isChoice = true ∧
      c.score right other c.correct = 100 ∧ c.score right other Finset.univ = 0 ∧
      (∀ a ∈ c.answers, Binary64.IsNearest (if a.checked = true then 50 else -100)
        (Binary64.ofFloat a.fraction)) := by
  intro item list
  obtain ⟨c, hc⟩ : ∃ c, list.classify false ":".toList = .ok c := ⟨_, rfl⟩
  have hchoice : c.kind.isChoice = true := by
    cases hc
    rfl
  obtain ⟨right, other, -, -, hrightLe, hotherLe, hright, hother, hlength, hall, hadds⟩ :=
    choice_scoring hc hchoice
  have hkind : c.kind = .multipleChoice := by
    cases hc
    rfl
  have hticks : list.ticks = 2 ∧ list.unticked = 1 := by decide
  have hsmall : list.items.length ≤ 2 ^ 53 := by decide
  rw [hticks.1] at hright
  rw [if_pos ⟨hkind, by rw [hticks.2]; decide⟩, hticks.2] at hother
  refine ⟨c, right, other, hc, hchoice, hadds.right_sum, ?_, fun a ha => ?_⟩
  · cases hc
    exact hadds.all rfl ⟨(1 : Fin 3), by decide⟩
  · obtain ⟨i, hi⟩ := List.mem_iff_getElem?.mp ha
    have hlt : i < list.items.length := hlength ▸ (List.getElem?_eq_some_iff.mp hi).1
    obtain ⟨-, -, hrounds⟩ := hall i a _ hi (List.getElem?_eq_getElem hlt)
    have hvalue : (if a.checked = true then right else other).value =
        if a.checked = true then 50 else -100 := by
      split_ifs
      · rw [hright]
        norm_num
      · rw [hother]
        norm_num
    rw [← hvalue]
    refine hrounds.nearest ?_
    split_ifs
    · exact hrightLe.trans hsmall
    · exact hotherLe.trans hsmall

end Quizdown
