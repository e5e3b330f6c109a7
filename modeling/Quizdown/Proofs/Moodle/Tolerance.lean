import Quizdown.Proofs.AnswerList.Tolerance
import Quizdown.Proofs.Assembly.Questions
import Quizdown.Proofs.Decimal.Precision
import Quizdown.Proofs.Moodle.Lossless

/-! The tolerance that a numerical question is rendered with: five decimal places of the float
nearest to the number that was written. Which tolerances survive that, and which become zero. -/
set_option autoImplicit false

namespace Quizdown

namespace Binary64

/-- Halfway between the two floats around half a unit of the last of five places. -/
def halfUnit : ℚ := (5902958103587056 + 1 / 2) * 2 ^ (-70 : Int)

theorem halfUnit_bounds :
    4999999999999999 / 10 ^ 21 < halfUnit ∧ halfUnit < 5000000000000001 / 10 ^ 21 := by
  norm_num [halfUnit]

inductive WrittenAs (x : ℚ) : Text → Prop
  | rounded {m : Nat} {e : Int} {units : Nat} {s : Text} (near : NearestTo x (.finite false m e))
      (rounds : RoundsTo (magnitude m e * 10 ^ 5) units)
      (denotes : Text.Denotes s (units / 10 ^ 5)) : WrittenAs x s
  | infinite (beyond : limit ≤ x) : WrittenAs x "inf".toList

variable {x : ℚ} {s : Text} {m units : Nat} {e : Int}

theorem writtenAs_fractionText {t : Float} (h : NearestTo x (ofFloat t)) :
    WrittenAs x (fractionText t) := by
  cases ht : ofFloat t with
  | nan =>
    rw [ht] at h
    cases h
  | finite negative m e =>
    rw [ht] at h
    cases h with
    | finite canonical below near even =>
      exact .rounded (.finite canonical below near even) (roundsTo_roundedUnits 5 m e)
        (denotes_fractionText ht)
  | infinite negative =>
    rw [ht] at h
    cases h with
    | infinite beyond =>
      have hinf : fractionText t = "inf".toList := by
        rw [fractionText, ht]
        rfl
      rw [hinf]
      exact .infinite beyond

theorem units_eq_zero_iff (near : NearestTo x (.finite false m e))
    (rounds : RoundsTo (magnitude m e * 10 ^ 5) units) : units = 0 ↔ x ≤ halfUnit := by
  have hp : Fits 5902958103587056 (-70) := ⟨by norm_num, by norm_num, by norm_num⟩
  have hnext : Fits (5902958103587056 + 1) (-70) := ⟨by norm_num, by norm_num, by norm_num⟩
  have hcanonical : Fits m e := by
    cases near with
    | finite canonical => exact canonical.toFits
  have hmiddle := near.le_iff hp hnext (by norm_num) (by norm_num)
  rw [Nat.cast_ofNat, ← halfUnit] at hmiddle
  have hside := hcanonical.le_or_ge (u := -70) (p := 5902958103587056) (by norm_num)
  have hlow : magnitude 5902958103587056 (-70) < 1 / (2 * 10 ^ 5) := by norm_num [magnitude]
  have hhigh : 1 / (2 * 10 ^ 5) < magnitude (5902958103587056 + 1) (-70) := by norm_num [magnitude]
  rw [← hmiddle]
  constructor
  · intro hunits
    have hbound := rounds.bounds.2
    rw [hunits, Nat.cast_zero, zero_add] at hbound
    refine hside.resolve_right fun hge => ?_
    linarith
  · intro hle
    have hsmall : |magnitude m e * 10 ^ 5 - (0 : Nat)| < 1 / 2 := by
      rw [Nat.cast_zero, sub_zero, abs_of_nonneg (mul_nonneg (magnitude_nonneg m e) (by norm_num))]
      linarith
    exact rounds.unique (.of_lt hsmall)

theorem WrittenAs.denotes_zero_iff (h : WrittenAs x s) : Text.Denotes s 0 ↔ x ≤ halfUnit := by
  cases h with
  | @rounded m e units _ near rounds denotes =>
    rw [← units_eq_zero_iff near rounds]
    constructor
    · intro hzero
      have hunits := denotes.unique hzero
      rw [div_eq_zero_iff] at hunits
      exact_mod_cast hunits.resolve_right (by norm_num)
    · rintro rfl
      simpa using denotes
  | infinite beyond =>
    have hlarge : halfUnit < x := by
      have hone : halfUnit < 2 ^ (0 : Int) := halfUnit_bounds.2.trans (by norm_num)
      exact hone.trans ((zpow_lt_limit (by norm_num)).trans_le beyond)
    refine iff_of_false (fun hzero => ?_) (not_le.mpr hlarge)
    exact absurd (hzero.mem 'i' (by simp)) (by decide)

/-- A number of at most five places comes out the same, unless it is too large for a float to tell
its neighbours apart. -/
theorem WrittenAs.denotes_iff (h : WrittenAs x s) (hx : 0 ≤ x) (hlt : x < 2 ^ 36) :
    Text.Denotes s x ↔ ∃ k : Nat, x = k / 10 ^ 5 := by
  cases h with
  | @rounded m e units _ near rounds denotes =>
    constructor
    · exact fun hsame => ⟨units, (denotes.unique hsame).symm⟩
    · rintro ⟨k, rfl⟩
      have hupper : (k / 10 ^ 5 : ℚ) < 2 ^ (-17 + 53 : Int) := hlt.trans_eq (by norm_num)
      have herror := near.error hx (by norm_num) (by norm_num) hupper
      have hnear : |magnitude m e * 10 ^ 5 - k| < 1 / 2 := by
        have hscale : magnitude m e * 10 ^ 5 - k = -((k / 10 ^ 5 - magnitude m e) * 10 ^ 5) := by
          ring
        rw [hscale, abs_neg, abs_mul, abs_of_pos (by norm_num : (0 : ℚ) < 10 ^ 5)]
        norm_num at herror ⊢
        linarith
      rw [rounds.unique (.of_lt hnear)] at denotes
      exact denotes
  | infinite beyond =>
    have hlarge : (2 : ℚ) ^ (36 : Int) < x := (zpow_lt_limit (by norm_num)).trans_le beyond
    exact absurd hlt (not_lt.mpr (by exact_mod_cast hlarge.le))

end Binary64

/-- The tolerance of a numerical question in the XML has five places of the float nearest to the
number that was written. It is zero for numbers up to half a unit of the last place, and the number
itself for those that have no more than five places. -/
theorem convertQuiz_tolerance {settings : Settings} {source xml : Text}
    (h : convertQuiz settings source = .ok xml) {before after : List Block} {b : Block}
    {item : Item} {n : NumericAnswer} {w : Text} {x : ℚ}
    (hcontent : (Document.read source).content = before ++ b :: after)
    (hlist : b.kind = .list ⟨false, [item]⟩) (hplain : item.checked = none)
    (hspells : NumericAnswer.Spells item.text n) (hw : n.tolerance = some w)
    (hx : Text.Denotes w x) :
    ∃ quiz question answer tolerance, Xml.read? xml = some quiz ∧
      quiz.children[before.countP fun b => b.kind.isList]? = some question ∧
      question.childrenTagged "answer".toList = [answer] ∧
      answer.textAt? "tolerance".toList = some tolerance ∧
      Binary64.WrittenAs x tolerance ∧
      (Text.Denotes tolerance 0 ↔ x ≤ Binary64.halfUnit) ∧
      (x < 2 ^ 36 → (Text.Denotes tolerance x ↔ ∃ k : Nat, x = k / 10 ^ 5)) := by
  rw [convertQuiz] at h
  cases hparse : parseQuiz settings source with
  | error e =>
    rw [hparse] at h
    cases h
  | ok qs =>
    rw [hparse] at h
    cases h
    obtain ⟨forceMulti, c, q, hc, hq, hkind, hanswers⟩ :=
      exists_question_of_list hparse hcontent hlist
    have hnumerical := AnswerList.classify_of_spells hspells hplain hc
    rw [hnumerical] at hkind hanswers
    have hfits : q.kind.Fits q.answers := by
      rw [hkind, hanswers]
      exact ⟨_, rfl, rfl⟩
    have hrepresents := (Moodle.represents_question settings hfits).answers
    simp only [Moodle.HasAnswers, hkind, hanswers] at hrepresents
    obtain ⟨a, answer, tolerance, ha, hanswer, -, htolerance, htext⟩ := hrepresents
    cases ha
    cases htolerance
    have hnear := NumericAnswer.toleranceValue_of_denotes hw hx
    have hwritten := Binary64.writtenAs_fractionText hnear
    have hchildren : (Moodle.quiz settings qs).children = qs.map (Moodle.question settings) := rfl
    refine ⟨Moodle.quiz settings qs, Moodle.question settings q, answer, _,
      Xml.read?_document (Moodle.readable_quiz settings qs), ?_, hanswer, htext, hwritten,
      hwritten.denotes_zero_iff, hwritten.denotes_iff hx.nonneg⟩
    rw [hchildren, List.getElem?_map, hq]
    rfl

theorem convertQuiz_tolerance_quarter :
    let source := "What?\n\n- 5 ± .25\n".toList
    ∃ xml quiz question answer tolerance, convertQuiz {} source = .ok xml ∧
      Xml.read? xml = some quiz ∧ quiz.children[0]? = some question ∧
      question.childrenTagged "answer".toList = [answer] ∧
      answer.textAt? "tolerance".toList = some tolerance ∧
      Text.Denotes ".25".toList (1 / 4) ∧ Text.Denotes tolerance (1 / 4) := by
  intro source
  let question : Block := ⟨.paragraph "<p>What?</p>".toList "What?".toList, ⟨0, 5⟩, 1, 1⟩
  let item : Item := ⟨"5 ± .25".toList, "5 ± .25".toList, none⟩
  let answers : Block := ⟨.list ⟨false, [item]⟩, ⟨7, 17⟩, 3, 2⟩
  have hcontent : (Document.read source).content = [question] ++ answers :: [] := by
    decide +kernel
  have hconvert : (convertQuiz {} source).toOption.isSome = true := by decide +kernel
  have hquarter : Text.Denotes ['.', '2', '5'] (1 / 4) := by
    refine ⟨[], ['2', '5'], ⟨.inl rfl, by simp, by simp⟩, ?_⟩
    have htwo : '2'.toNat - '0'.toNat = 2 := rfl
    have hfive : '5'.toNat - '0'.toNat = 5 := rfl
    norm_num [Text.positional, htwo, hfive]
  cases hxml : convertQuiz {} source with
  | error e =>
    rw [hxml] at hconvert
    cases hconvert
  | ok xml =>
    have hspells : NumericAnswer.Spells item.text ⟨['5'], some ['.', '2', '5']⟩ :=
      NumericAnswer.ofText?_eq_some_iff.mp rfl
    obtain ⟨quiz, question, answer, tolerance, hquiz, hquestion, hanswer, htext, -, -, hexact⟩ :=
      convertQuiz_tolerance hxml hcontent rfl rfl hspells rfl hquarter
    have hdenotes := (hexact (by norm_num)).mpr ⟨25000, by norm_num⟩
    exact ⟨xml, quiz, question, answer, tolerance, rfl, hquiz, hquestion, hanswer, htext, hquarter,
      hdenotes⟩

/-- A millionth is written as zero. -/
theorem convertQuiz_tolerance_millionth :
    let source := "What?\n\n- 5 ± 0.000001\n".toList
    let tolerances (quiz : Element) : List (Option Text) :=
      quiz.children.flatMap fun question =>
        (question.childrenTagged "answer".toList).map (Element.textAt? · "tolerance".toList)
    Text.Denotes "0.000001".toList (1 / 10 ^ 6) ∧
      ((convertQuiz {} source).toOption.bind Xml.read?).map tolerances =
        some [some "0".toList] := by
  refine ⟨?_, by decide +kernel⟩
  refine ⟨['0'], ['0', '0', '0', '0', '0', '1'], ⟨.inl rfl, by simp, by simp⟩, ?_⟩
  have hone : '1'.toNat - '0'.toNat = 1 := rfl
  norm_num [Text.positional, hone]

end Quizdown
