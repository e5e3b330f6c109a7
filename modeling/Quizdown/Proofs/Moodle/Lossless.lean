import Quizdown.Proofs.Assembly.WellFormed
import Quizdown.Proofs.Xml.RoundTrip
import Mathlib.Data.List.Forall2

/-! The questions of a document can be told from its quiz: the XML is read back as a tree, and the
tree says about each question what the document said. -/
set_option autoImplicit false

namespace Quizdown
namespace Moodle

def creditOf (e : Element) : Option Text × Option Text :=
  (e.textAt? "text".toList, e.attribute? "fraction".toList)

def pairOf (e : Element) : Option Text × Option Text :=
  (e.textAt? "text".toList, e.textAt? "answer/text".toList)

/-- The element has the answers of the question, in the form of its kind. -/
def HasAnswers (q : Question) (e : Element) : Prop :=
  let answers := e.childrenTagged "answer".toList
  let pairs := e.childrenTagged "subquestion".toList
  match q.kind with
  | .singleChoice | .multipleChoice =>
    answers.map creditOf =
        q.answers.map (fun a => (some a.text, some (fractionText a.fraction))) ∧
      e.textAt? "single".toList =
        some (if q.kind = .singleChoice then "true".toList else "false".toList) ∧
      e.textAt? "shuffleanswers".toList =
        some (if q.config.shuffle then "true".toList else "false".toList) ∧
      e.textAt? "answernumbering".toList = some (match q.config.numbering with
        | .lowerAlpha => "abc".toList
        | .upperAlpha => "ABCD".toList
        | .decimal => "123".toList
        | .lowerRoman => "iii".toList
        | .upperRoman => "IIII".toList)
  | .enumeratedMatching =>
    pairs.map pairOf =
        q.answers.mapIdx (fun i a => (some (Nat.toDigits 10 (i + 1) ++ ['.']), some a.text)) ∧
      e.textAt? "shuffleanswers".toList = some "false".toList
  | .associativeMatching =>
    pairs.map pairOf = q.answers.map (fun a => (a.matchKey, a.matchValue)) ∧
      (∀ a ∈ q.answers, a.matchKey.isSome = true ∧ a.matchValue.isSome = true) ∧
      e.textAt? "shuffleanswers".toList =
        some (if q.config.shuffle then "true".toList else "false".toList)
  | .shortAnswer =>
    ∃ a answer, q.answers = [a] ∧ answers = [answer] ∧
      creditOf answer = (some a.text, some (fractionText a.fraction))
  | .numerical =>
    ∃ a answer tolerance, q.answers = [a] ∧ answers = [answer] ∧
      creditOf answer = (some a.text, some (fractionText a.fraction)) ∧
      a.tolerance = some tolerance ∧
      answer.textAt? "tolerance".toList = some (fractionText tolerance)

structure Represents (q : Question) (e : Element) : Prop where
  tag : e.tag = "question".toList
  type : e.attribute? "type".toList = some (match q.kind with
    | .singleChoice | .multipleChoice => "multichoice".toList
    | .enumeratedMatching | .associativeMatching => "matching".toList
    | .shortAnswer => "shortanswer".toList
    | .numerical => "numerical".toList)
  name : e.textAt? "name/text".toList = some q.name
  description : e.textAt? "questiontext/text".toList = some q.description
  answers : HasAnswers q e

/-- The elements that depend on the kind end with the answers, and no other element of a question
has a tag of theirs. -/
theorem childrenTagged_question (settings : Settings) (q : Question) {tag : Text}
    (es : List Element) (htag : tag = "answer".toList ∨ tag = "subquestion".toList)
    (hkind : (kindElements q).filter (fun c => c.tag = tag) = es.filter fun c => c.tag = tag)
    (hes : ∀ e ∈ es, e.tag = tag) : (question settings q).childrenTagged tag = es := by
  have hall : es.filter (fun c => c.tag = tag) = es :=
    List.filter_eq_self.mpr fun e he => decide_eq_true (hes e he)
  rw [← hall, ← hkind]
  rcases htag with rfl | rfl <;> rfl

theorem tag_of_mem_map {answers : List Answer} {f : Answer → Element} {tag : Text}
    (hf : ∀ a, (f a).tag = tag) : ∀ e ∈ answers.map f, e.tag = tag := by
  intro e he
  obtain ⟨a, -, rfl⟩ := List.mem_map.mp he
  exact hf a

theorem tag_of_mem_enumeratedPairs {n : Nat} {answers : List Answer} {e : Element}
    (h : e ∈ enumeratedPairs n answers) : e.tag = "subquestion".toList := by
  induction answers generalizing n with
  | nil => cases h
  | cons a answers ih =>
    rcases List.mem_cons.mp h with rfl | h
    · rfl
    · exact ih h

theorem map_pairOf_enumeratedPairs {n : Nat} {answers : List Answer}
    (h : ∀ i a, answers[i]? = some a → a.orderIndex = some (n + i + 1)) :
    (enumeratedPairs n answers).map pairOf =
      answers.mapIdx fun i a => (some (Nat.toDigits 10 (n + i + 1) ++ ['.']), some a.text) := by
  induction answers generalizing n with
  | nil => rfl
  | cons a answers ih =>
    have ha : a.orderIndex = some (n + 1) := h 0 a rfl
    have hrest := @ih (n + 1) fun i b hb => by
      have hb' := h (i + 1) b hb
      rw [hb']
      congr 1
      omega
    have hshift : ∀ i, n + 1 + i + 1 = n + (i + 1) + 1 := fun i => by omega
    rw [enumeratedPairs, List.map_cons, hrest, List.mapIdx_cons, ha]
    simp only [hshift]
    rfl

theorem represents_question (settings : Settings) {q : Question} (h : q.kind.Fits q.answers) :
    Represents q (question settings q) := by
  refine ⟨rfl, rfl, rfl, rfl, ?_⟩
  obtain ⟨name, tags, description, kind, answers, config, line⟩ := q
  cases kind with
  | singleChoice | multipleChoice =>
    refine ⟨?_, rfl, rfl, rfl⟩
    rw [childrenTagged_question settings _ (answers.map choiceAnswer) (.inl rfl) rfl
        (tag_of_mem_map fun _ => rfl),
      List.map_map]
    rfl
  | enumeratedMatching =>
    refine ⟨?_, rfl⟩
    rw [childrenTagged_question settings _ (enumeratedPairs 0 answers) (.inr rfl) rfl
        fun e he => tag_of_mem_enumeratedPairs he,
      map_pairOf_enumeratedPairs fun i a ha => (h i a ha).trans (by rw [Nat.zero_add])]
    simp only [Nat.zero_add]
  | associativeMatching =>
    refine ⟨?_, h, rfl⟩
    rw [childrenTagged_question settings _ (answers.map associativePair) (.inr rfl) rfl
        (tag_of_mem_map fun _ => rfl),
      List.map_map]
    refine List.map_congr_left fun a ha => ?_
    obtain ⟨key, hkey⟩ := Option.isSome_iff_exists.mp (h a ha).1
    obtain ⟨value, hvalue⟩ := Option.isSome_iff_exists.mp (h a ha).2
    rw [Function.comp_apply, associativePair, hkey, hvalue]
    rfl
  | shortAnswer =>
    obtain ⟨a, rfl⟩ := h
    exact ⟨a, shortAnswer a, rfl, rfl, rfl⟩
  | numerical =>
    obtain ⟨a, rfl, ha⟩ := h
    obtain ⟨tolerance, ha⟩ := Option.isSome_iff_exists.mp ha
    have htext : (numericalAnswer a).textAt? "tolerance".toList =
        some (fractionText (a.tolerance.getD 0.0)) := rfl
    refine ⟨a, numericalAnswer a, tolerance, rfl, rfl, rfl, ha, ?_⟩
    rw [htext, ha]
    rfl

theorem map_texts {qs : List Question} {es : List Element} (h : List.Forall₂ Represents qs es) :
    es.map (fun e => (e.textAt? "name/text".toList, e.textAt? "questiontext/text".toList)) =
      qs.map fun q => (some q.name, some q.description) := by
  induction h with
  | nil => rfl
  | cons hq _ ih => rw [List.map_cons, List.map_cons, hq.name, hq.description, ih]

theorem readable_wrapped {tag : Text} (htag : Xml.isName tag = true) (text : Text) :
    (Element.wrapped tag text).Readable :=
  Element.readable_node htag rfl (by simpa using Element.readable_leaf rfl text)

theorem readable_emptyFeedback : emptyFeedback.Readable :=
  Element.readable_node rfl rfl (by simpa using Element.readable_leaf rfl [])

theorem readable_subquestion (prompt answer : Text) : (subquestion prompt answer).Readable :=
  Element.readable_node rfl rfl
    (by simpa using ⟨Element.readable_leaf rfl prompt, readable_wrapped rfl answer⟩)

theorem readable_enumeratedPairs {n : Nat} {answers : List Answer} :
    ∀ e ∈ enumeratedPairs n answers, e.Readable := by
  induction answers generalizing n with
  | nil => simp [enumeratedPairs]
  | cons a answers ih =>
    rw [enumeratedPairs, List.forall_mem_cons]
    exact ⟨readable_subquestion _ _, ih⟩

theorem readable_formattedAnswer (a : Answer) (format : Text) :
    (Element.mk "answer".toList
      [("fraction".toList, fractionText a.fraction), ("format".toList, format)] []
      [.leaf "text".toList a.text, emptyFeedback]).Readable :=
  Element.readable_node rfl rfl
    (by simpa using ⟨Element.readable_leaf rfl a.text, readable_emptyFeedback⟩)

theorem readable_numericalAnswer (a : Answer) : (numericalAnswer a).Readable :=
  Element.readable_node rfl rfl
    (by simpa using ⟨Element.readable_leaf rfl a.text, Element.readable_leaf rfl _,
      readable_emptyFeedback⟩)

theorem readable_kindElements (q : Question) : ∀ e ∈ kindElements q, e.Readable := by
  cases hk : q.kind with
  | singleChoice | multipleChoice =>
    simp only [kindElements, hk, List.forall_mem_append, List.forall_mem_cons,
      List.forall_mem_map]
    exact ⟨⟨Element.readable_leaf rfl _, Element.readable_leaf rfl _, Element.readable_leaf rfl _,
      by simp⟩, fun a _ => readable_formattedAnswer a _⟩
  | enumeratedMatching =>
    simp only [kindElements, hk, List.forall_mem_cons]
    exact ⟨Element.readable_leaf rfl _, readable_enumeratedPairs⟩
  | associativeMatching =>
    simp only [kindElements, hk, List.forall_mem_cons, List.forall_mem_map]
    exact ⟨Element.readable_leaf rfl _, fun a _ => readable_subquestion _ _⟩
  | shortAnswer =>
    simp only [kindElements, hk, List.forall_mem_cons, List.forall_mem_map]
    exact ⟨Element.readable_leaf rfl _, fun a _ => readable_formattedAnswer a _⟩
  | numerical =>
    simp only [kindElements, hk, List.forall_mem_map]
    exact fun a _ => readable_numericalAnswer a

theorem readable_question (settings : Settings) (q : Question) :
    (question settings q).Readable := by
  have htags : ∀ e ∈ (tagsOf settings q).map (Element.wrapped "tag".toList), e.Readable :=
    List.forall_mem_map.mpr fun t _ => readable_wrapped rfl t
  refine Element.readable_node rfl rfl ?_
  simp only [List.forall_mem_append, List.forall_mem_cons]
  exact ⟨⟨readable_wrapped rfl q.name,
    Element.readable_node rfl rfl (by simpa using Element.readable_leaf rfl q.description),
    Element.readable_leaf rfl _, Element.readable_leaf rfl _, Element.readable_leaf rfl _,
    Element.readable_node rfl rfl htags, by simp⟩, readable_kindElements q⟩

theorem readable_quiz (settings : Settings) (qs : List Question) : (quiz settings qs).Readable :=
  Element.readable_node rfl rfl (List.forall_mem_map.mpr fun q _ => readable_question settings q)

end Moodle

/-- The XML that a document is converted to is read back as a quiz that has the questions of the
document, one by one and in order. -/
theorem convertQuiz_lossless {settings : Settings} {source xml : Text}
    (h : convertQuiz settings source = .ok xml) :
    ∃ qs quiz, parseQuiz settings source = .ok qs ∧ Xml.read? xml = some quiz ∧
      quiz.tag = "quiz".toList ∧ List.Forall₂ Moodle.Represents qs quiz.children := by
  unfold convertQuiz at h
  cases hparse : parseQuiz settings source with
  | error e =>
    rw [hparse] at h
    cases h
  | ok qs =>
    rw [hparse] at h
    cases h
    refine ⟨qs, Moodle.quiz settings qs, rfl,
      Xml.read?_document (Moodle.readable_quiz settings qs), rfl, ?_⟩
    have hchildren : (Moodle.quiz settings qs).children = qs.map (Moodle.question settings) := rfl
    rw [hchildren, List.forall₂_map_right_iff, List.forall₂_same]
    exact fun q hq =>
      Moodle.represents_question settings (wellFormed_of_mem_assemble hparse q hq).answers.fits

theorem convertQuiz_lossless_markup :
    let source := "## A < B & C\n\nIs `a < b`?\n\n- [x] yes\n- [ ] no\n".toList
    ∃ xml quiz, convertQuiz {} source = .ok xml ∧ Xml.read? xml = some quiz ∧
      quiz.children.map (fun e => (e.textAt? "name/text".toList,
          e.textAt? "questiontext/text".toList)) =
        [(some "A < B & C".toList, some "<p>Is <code>a &lt; b</code>?</p>".toList)] := by
  intro source
  have hsource : (parseQuiz {} source).map (List.map fun q => (q.name, q.description)) =
      .ok [("A < B & C".toList, "<p>Is <code>a &lt; b</code>?</p>".toList)] := by
    decide +kernel
  cases hparse : parseQuiz {} source with
  | error e =>
    rw [hparse] at hsource
    cases hsource
  | ok qs =>
    have hconvert : convertQuiz {} source = .ok (renderQuiz {} qs) := by
      rw [convertQuiz, hparse]
      rfl
    obtain ⟨qs', quiz, hqs, hread, -, hall⟩ := convertQuiz_lossless hconvert
    refine ⟨_, quiz, hconvert, hread, ?_⟩
    rw [hqs] at hsource
    have htexts := Except.ok.inj hsource
    have hpairs := congrArg (List.map (Prod.map some some)) htexts
    rw [Moodle.map_texts hall]
    simpa using hpairs

end Quizdown
