import Quizdown.Assembly.Log
import Quizdown.Moodle

/-! Directives that are reported to have no effect have none: neither on what a list is taken for
nor on what is written of the question. The report, the reading of lists and the writing of
questions have no code in common; they agree kind by kind. -/
set_option autoImplicit false

namespace Quizdown

namespace QuestionConfig

def SameAt (c d : QuestionConfig) : DirectiveKey → Prop
  | .shuffle => c.shuffle = d.shuffle
  | .numbering => c.numbering = d.numbering
  | .forceMulti => c.forceMulti = d.forceMulti

def AgreeOutside (keys : List DirectiveKey) (c d : QuestionConfig) : Prop :=
  ∀ key, key ∉ keys → c.SameAt d key

theorem AgreeOutside.eq {c d : QuestionConfig} (h : AgreeOutside [] c d) : c = d := by
  have hshuffle : c.shuffle = d.shuffle := h .shuffle (by simp)
  have hnumbering : c.numbering = d.numbering := h .numbering (by simp)
  have hforce : c.forceMulti = d.forceMulti := h .forceMulti (by simp)
  cases c
  cases d
  simp_all

end QuestionConfig

open QuestionConfig (AgreeOutside)

theorem Kind.idleKeys_of_isChoice {kind : Kind} (h : kind.isChoice = true) : kind.idleKeys = [] := by
  cases kind with
  | singleChoice | multipleChoice => rfl
  | _ => cases h

namespace AnswerList

variable {list : AnswerList} {separator : Text} {f : Bool} {c : Classification}

theorem isChoice_of_choice {items : List Item} (h : choice items f = .ok c) :
    c.kind.isChoice = true := by
  unfold choice at h
  dsimp only at h
  split at h
  · cases h
  · cases h
    dsimp only
    split <;> rfl

theorem classify_eq_or_choice (list : AnswerList) (separator : Text) (f g : Bool) :
    list.classify f separator = list.classify g separator ∨
      list.classify f separator = choice list.items f := by
  unfold classify
  dsimp only
  split
  · exact .inl rfl
  split
  · exact .inl rfl
  split
  · exact .inl rfl
  split
  · exact .inr rfl
  · exact .inl rfl

theorem classify_of_not_choice (h : list.classify f separator = .ok c)
    (hkind : c.kind.isChoice = false) (g : Bool) : list.classify g separator = .ok c := by
  rcases list.classify_eq_or_choice separator f g with hsame | hchoice
  · rw [← hsame, h]
  · rw [hchoice] at h
    rw [isChoice_of_choice h] at hkind
    cases hkind

/-- A list is read alike under settings that differ only where its kind does not look. -/
theorem classify_of_agree {before after : QuestionConfig}
    (h : list.classify before.forceMulti separator = .ok c)
    (hagree : AgreeOutside c.kind.idleKeys before after) :
    list.classify after.forceMulti separator = .ok c := by
  cases hkind : c.kind.isChoice with
  | false => exact classify_of_not_choice h hkind _
  | true =>
    rw [Kind.idleKeys_of_isChoice hkind] at hagree
    rw [← hagree.eq, h]

end AnswerList

namespace Moodle

theorem question_of_agree (settings : Settings) (q : Question) {config : QuestionConfig}
    (hagree : AgreeOutside q.kind.idleKeys q.config config) :
    question settings { q with config := config } = question settings q := by
  have helements : kindElements { q with config := config } = kindElements q := by
    cases hkind : q.kind with
    | singleChoice | multipleChoice =>
      rw [hkind] at hagree
      simp only [kindElements, hkind, hagree.eq]
    | associativeMatching =>
      rw [hkind] at hagree
      have hshuffle : q.config.shuffle = config.shuffle := hagree .shuffle (by decide)
      simp only [kindElements, hkind, hshuffle]
    | enumeratedMatching | shortAnswer | numerical => simp only [kindElements, hkind]
  rw [question, helements]
  rfl

/-- Settings of a question that differ only in keys that its kind ignores make no difference: its
list stands for the same kind with the same answers, and the same is written for it. -/
theorem idleKeys_have_no_effect {settings : Settings} {list : AnswerList} {separator : Text}
    {before after : QuestionConfig} {c : Classification}
    (h : list.classify before.forceMulti separator = .ok c)
    (hagree : AgreeOutside c.kind.idleKeys before after) :
    list.classify after.forceMulti separator = .ok c ∧
      ∀ (name : Text) (tags : Texts) (description : Text) (line : Nat),
        question settings ⟨name, tags, description, c.kind, c.answers, before, line⟩ =
          question settings ⟨name, tags, description, c.kind, c.answers, after, line⟩ := by
  refine ⟨AnswerList.classify_of_agree h hagree, fun name tags description line => ?_⟩
  exact (question_of_agree settings ⟨name, tags, description, c.kind, c.answers, before, line⟩
    hagree).symm

theorem idleKeys_have_no_effect_numbered :
    let item (s : String) : Item := ⟨s.toList, s.toList, none⟩
    let list : AnswerList := ⟨true, [item "wake up", item "get up"]⟩
    let config : QuestionConfig := ⟨false, .decimal, true⟩
    let c : Classification := ⟨.enumeratedMatching, AnswerList.enumerated 0 list.items⟩
    (list.classify false [':'] = .ok c ∧ AgreeOutside c.kind.idleKeys {} config) ∧
      list.classify true [':'] = .ok c ∧
      question {} ⟨['?'], [], ['?'], c.kind, c.answers, {}, 1⟩ =
        question {} ⟨['?'], [], ['?'], c.kind, c.answers, config, 1⟩ := by
  intro item list config c
  have hlist : list.classify false [':'] = .ok c := rfl
  have hagree : AgreeOutside c.kind.idleKeys {} config := by
    intro key hkey
    cases key <;> exact absurd (by decide) hkey
  obtain ⟨hsame, hquestion⟩ := idleKeys_have_no_effect hlist hagree
  exact ⟨⟨hlist, hagree⟩, hsame, hquestion ['?'] [] ['?'] 1⟩

end Moodle
end Quizdown
