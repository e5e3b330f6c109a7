import Quizdown.Converter
import Mathlib.Data.List.Forall2
import Mathlib.Data.Option.Basic

/-! Two runs over one document, under settings that have the separator of pairs in common. The runs
meet the same errors at the same blocks, and their questions differ in nothing but the resolved
settings and, where one asks to treat a single checked item as multiple choice, in that. -/
set_option autoImplicit false

namespace Quizdown

inductive Alike {ε α β : Type} (R : α → β → Prop) : Except ε α → Except ε β → Prop
  | error (e : ε) : Alike R (.error e) (.error e)
  | ok {a : α} {b : β} (h : R a b) : Alike R (.ok a) (.ok b)

theorem Alike.cases {ε α β : Type} {R : α → β → Prop} {x : Except ε α} {y : Except ε β}
    (h : Alike R x y) :
    (∃ e, x = .error e ∧ y = .error e) ∨ ∃ a b, x = .ok a ∧ y = .ok b ∧ R a b := by
  cases h with
  | error e => exact .inl ⟨e, rfl, rfl⟩
  | ok h => exact .inr ⟨_, _, rfl, rfl, h⟩

theorem Alike.refl {ε α : Type} {R : α → α → Prop} (hR : ∀ a, R a a) (x : Except ε α) :
    Alike R x x := by
  cases x with
  | error e => exact .error e
  | ok a => exact .ok (hR a)

structure Answer.SameContent (a b : Answer) : Prop where
  text : a.text = b.text
  checked : a.checked = b.checked
  matchKey : a.matchKey = b.matchKey
  matchValue : a.matchValue = b.matchValue
  orderIndex : a.orderIndex = b.orderIndex
  tolerance : a.tolerance = b.tolerance

theorem Answer.SameContent.refl (a : Answer) : a.SameContent a := ⟨rfl, rfl, rfl, rfl, rfl, rfl⟩

def Kind.Swapped (k l : Kind) : Prop :=
  k = .singleChoice ∧ l = .multipleChoice ∨ k = .multipleChoice ∧ l = .singleChoice

/-- Kind and answers are the same, or the two differ in how they treat the only checked item, which
they do only if `differ` holds. -/
def GradedAlike (differ : Prop) (k : Kind) (as : List Answer) (l : Kind) (bs : List Answer) :
    Prop :=
  k = l ∧ as.map Answer.fraction = bs.map Answer.fraction ∨
    differ ∧ (as.filter Answer.checked).length = 1 ∧ k.Swapped l

/-- The questions differ in their resolved settings at most, and in the treatment of a single
checked item if the settings do. -/
structure Question.Agree (s t : Settings) (q r : Question) : Prop where
  name : q.name = r.name
  tags : q.tags = r.tags
  description : q.description = r.description
  line : q.line = r.line
  answers : List.Forall₂ Answer.SameContent q.answers r.answers
  graded : GradedAlike (s.forceMulti ≠ t.forceMulti) q.kind q.answers r.kind r.answers

namespace AnswerList

/-- The list as a whole decides everything but the treatment of a single checked item. -/
def AgreeUpTo (differ : Prop) (c d : Classification) : Prop :=
  List.Forall₂ Answer.SameContent c.answers d.answers ∧
    GradedAlike differ c.kind c.answers d.kind d.answers

theorem AgreeUpTo.refl (differ : Prop) (c : Classification) : AgreeUpTo differ c c :=
  ⟨List.forall₂_same.mpr fun a _ => .refl a, .inl ⟨rfl, rfl⟩⟩

theorem length_filter_checked (right other : Share) (items : List Item) :
    ((items.map (Item.option right other)).filter Answer.checked).length =
      (items.filter fun item => item.checked == some true).length := by
  rw [List.filter_map, List.length_map]
  rfl

theorem sameContent_options (items : List Item) (right other right' other' : Share) :
    List.Forall₂ Answer.SameContent (items.map (Item.option right other))
      (items.map (Item.option right' other')) := by
  rw [List.forall₂_map_left_iff, List.forall₂_map_right_iff, List.forall₂_same]
  exact fun item _ => ⟨rfl, rfl, rfl, rfl, rfl, rfl⟩

theorem choice_alike (items : List Item) (f g : Bool) :
    Alike (AgreeUpTo (f ≠ g)) (choice items f) (choice items g) := by
  by_cases hfg : f = g
  · subst hfg
    exact .refl (AgreeUpTo.refl _) _
  unfold choice
  dsimp only
  split
  · exact .error _
  · refine .ok ⟨sameContent_options items _ _ _ _, ?_⟩
    by_cases hone : (items.filter fun item => item.checked == some true).length = 1
    · refine .inr ⟨hfg, by rw [length_filter_checked, hone], ?_⟩
      cases f <;> cases g <;> simp_all [Kind.Swapped]
    · exact .inl (by simp [hone])

theorem classify_alike (list : AnswerList) (separator : Text) (f g : Bool) :
    Alike (AgreeUpTo (f ≠ g)) (list.classify f separator) (list.classify g separator) := by
  unfold classify
  dsimp only
  split
  · exact .error _
  split
  · exact .error _
  split
  · split
    · exact .refl (AgreeUpTo.refl _) _
    · exact .refl (AgreeUpTo.refl _) _
  · split
    · exact choice_alike _ f g
    · exact .error _

end AnswerList

def QuestionConfig.Agree (s t : Settings) (c d : QuestionConfig) : Prop :=
  c.forceMulti ≠ d.forceMulti → s.forceMulti ≠ t.forceMulti

namespace Directive

variable {s t : Settings}

theorem applyOne_alike {c c' : QuestionConfig} (h : QuestionConfig.Agree s t c c')
    (d : Directive) :
    Alike (QuestionConfig.Agree s t) (applyOne c d) (applyOne c' d) := by
  unfold applyOne
  split
  · exact .ok h
  · split
    · exact .ok h
    · exact .error _
  · split
    · exact .ok fun hne => absurd rfl hne
    · exact .error _
  · split
    · exact .ok h
    · exact .error _

theorem applyAll_alike {c c' : QuestionConfig} (h : QuestionConfig.Agree s t c c')
    (ds : List Directive) :
    Alike (QuestionConfig.Agree s t) (applyAll ds c) (applyAll ds c') := by
  induction ds generalizing c c' with
  | nil => exact .ok h
  | cons d ds ih =>
    rcases (applyOne_alike h d).cases with ⟨e, hc, hc'⟩ | ⟨c₁, c₁', hc, hc', hnext⟩
    · simp only [applyAll, hc, hc']
      exact .error e
    · simp only [applyAll, hc, hc']
      exact ih hnext

end Directive

structure Draft.Agree (s t : Settings) (d e : Draft) : Prop where
  same : { d with config := e.config } = e
  config : QuestionConfig.Agree s t d.config e.config

theorem Draft.Agree.label {s t : Settings} {d e : Draft} (h : Draft.Agree s t d e) :
    d.label = e.label := by
  rw [← h.same]
  rfl

theorem Draft.Agree.append {s t : Settings} {d e : Draft} (h : Draft.Agree s t d e)
    (html text : Text) : Draft.Agree s t (d.append html text) (e.append html text) where
  same := by
    rw [← h.same]
    rfl
  config := h.config

namespace Assembly

structure Agree (s t : Settings) (a b : Assembly) : Prop where
  tags : a.tags = b.tags
  draft : Option.Rel (Draft.Agree s t) a.draft b.draft
  questions : List.Forall₂ (Question.Agree s t) a.questions b.questions
  afterList : a.afterList = b.afterList

variable {s t : Settings} {a b : Assembly} {d e : Draft}

theorem Agree.draft_cases (h : Agree s t a b) :
    (a.draft = none ∧ b.draft = none) ∨
      ∃ d e, a.draft = some d ∧ b.draft = some e ∧ Draft.Agree s t d e := by
  have hdraft := h.draft
  generalize a.draft = x at hdraft
  generalize b.draft = y at hdraft
  cases hdraft with
  | none => exact .inl ⟨rfl, rfl⟩
  | some hd => exact .inr ⟨_, _, rfl, rfl, hd⟩

theorem newDraft_agree (h : Agree s t a b) (place : Location) (name : Option Text) :
    Draft.Agree s t (a.newDraft s place name) (b.newDraft t place name) where
  same := by simp [newDraft, h.tags]
  config := id

theorem openDraft_agree (h : Agree s t a b) (place : Location) :
    Draft.Agree s t (a.openDraft s place) (b.openDraft t place) := by
  rcases h.draft_cases with ⟨ha, hb⟩ | ⟨d, e, ha, hb, hd⟩
  · simpa [openDraft, ha, hb] using newDraft_agree h place none
  · simpa [openDraft, ha, hb] using hd

theorem addParagraph_alike (h : Draft.Agree s t d e) (html text : Text) :
    Alike (Draft.Agree s t) (addParagraph d html text) (addParagraph e html text) := by
  simp only [addParagraph_eq]
  rcases (Directive.applyAll_alike h.config (Directive.extract html).directives).cases with
    ⟨fault, hd, he⟩ | ⟨c, c', hd, he, hc⟩
  · simp only [hd, he]
    exact .error fault
  · have hnext : ∀ found, Draft.Agree s t
        { d with config := c, directives := d.directives ++ found }
        { e with config := c', directives := e.directives ++ found } :=
      fun _ => ⟨by rw [← h.same], hc⟩
    simp only [hd, he]
    split
    · exact .ok (hnext _)
    · exact .ok ((hnext _).append _ _)

theorem complete_alike (hsep : s.matchingSeparator = t.matchingSeparator)
    (h : Draft.Agree s t d e) (place : Location) (list : AnswerList) :
    Alike (Question.Agree s t) (complete s d place list) (complete t e place list) := by
  obtain ⟨hsame, hconfig⟩ := h
  -- the drafts have every field but the settings in common
  cases e with | mk name tags description plain config directives location => ?_
  obtain ⟨rfl, rfl, rfl, rfl, rfl, rfl⟩ : d.name = name ∧ d.tags = tags ∧
      d.description = description ∧ d.plain = plain ∧ d.directives = directives ∧
      d.location = location := by
    cases hsame
    exact ⟨rfl, rfl, rfl, rfl, rfl, rfl⟩
  simp only [complete, Draft.label, hsep]
  split
  · exact .error _
  rcases (list.classify_alike t.matchingSeparator d.config.forceMulti config.forceMulti).cases with
    ⟨fault, hd, he⟩ | ⟨c, c', hd, he, hcontent, hgraded⟩
  · simp only [hd, he]
    exact .error _
  · simp only [hd, he]
    split
    · exact .error _
    · refine .ok ⟨rfl, rfl, rfl, rfl, hcontent, ?_⟩
      exact hgraded.imp id fun ⟨hne, hswap⟩ => ⟨hconfig hne, hswap⟩

/-- A step of two runs that agree so far fails in both with the same error, or keeps them so. -/
theorem step_alike (hsep : s.matchingSeparator = t.matchingSeparator) (h : Agree s t a b)
    (block : Block) : Alike (Agree s t) (a.step s block) (b.step t block) := by
  have hopen := openDraft_agree h (placeOf block)
  cases hk : block.kind with
  | heading level text =>
    rcases h.draft_cases with ⟨ha, hb⟩ | ⟨d, e, ha, hb, hd⟩
    · simp only [step, hk, ha, hb]
      split
      · exact .ok ⟨rfl, .none, h.questions, rfl⟩
      · exact .ok ⟨h.tags, .some (newDraft_agree h _ _), h.questions, rfl⟩
    · simp only [step, hk, ha, hb, hd.label]
      split <;> exact .error _
  | paragraph html text =>
    simp only [step, hk, hopen.label]
    rcases (addParagraph_alike hopen html text).cases with ⟨fault, hd, he⟩ | ⟨d, e, hd, he, hnext⟩
    · simp only [hd, he]
      exact .error _
    · simp only [hd, he]
      exact .ok ⟨h.tags, .some hnext, h.questions, rfl⟩
  | code html text | rich html text =>
    simp only [step, hk]
    exact .ok ⟨h.tags, .some (hopen.append _ _), h.questions, rfl⟩
  | list list =>
    rcases h.draft_cases with ⟨ha, hb⟩ | ⟨d, e, ha, hb, hd⟩
    · simp only [step, hk, ha, hb, h.afterList]
      exact .error _
    · rcases (complete_alike hsep hd (placeOf block) list).cases with
        ⟨fault, hq, hr⟩ | ⟨q, r, hq, hr, hagree⟩
      · simp only [step, hk, ha, hb, hq, hr]
        exact .error _
      · simp only [step, hk, ha, hb, hq, hr]
        exact .ok ⟨h.tags, .none, List.rel_append h.questions (.cons hagree .nil), rfl⟩
  | rule | comment =>
    simp only [step, hk]
    exact .ok h

theorem steps_alike (hsep : s.matchingSeparator = t.matchingSeparator) (h : Agree s t a b)
    (blocks : List Block) : Alike (Agree s t) (a.steps s blocks) (b.steps t blocks) := by
  induction blocks generalizing a b with
  | nil => exact .ok h
  | cons block blocks ih =>
    rcases (step_alike hsep h block).cases with ⟨fault, ha, hb⟩ | ⟨a', b', ha, hb, hnext⟩
    · simp only [steps, ha, hb]
      exact .error fault
    · simp only [steps, ha, hb]
      exact ih hnext

theorem finish_alike (h : Agree s t a b) :
    Alike (List.Forall₂ (Question.Agree s t)) a.finish b.finish := by
  rcases h.draft_cases with ⟨ha, hb⟩ | ⟨d, e, ha, hb, hd⟩
  · simp only [finish, ha, hb]
    exact .ok h.questions
  · have hlocation : d.location = e.location := by rw [← hd.same]
    simp only [finish, ha, hb, hd.label, hlocation]
    exact .error _

end Assembly

/-- Settings with one separator of pairs accept the same documents, with questions that agree, and
refuse the others for the same reasons. -/
theorem parseQuiz_alike {s t : Settings} (hsep : s.matchingSeparator = t.matchingSeparator)
    (source : Text) :
    Alike (List.Forall₂ (Question.Agree s t)) (parseQuiz s source) (parseQuiz t source) := by
  have hstart : Assembly.Agree s t {} {} := ⟨rfl, .none, .nil, rfl⟩
  have hsteps := Assembly.steps_alike hsep hstart (Document.read source).visibleBlocks
  rcases hsteps.cases with ⟨fault, ha, hb⟩ | ⟨a, b, ha, hb, hend⟩
  · simp only [parseQuiz, assemble, ha, hb]
    exact .error fault
  · simp only [parseQuiz, assemble, ha, hb]
    exact Assembly.finish_alike hend

end Quizdown
