import Quizdown.Converter
import Quizdown.Proofs.Html.Elements
import Quizdown.Proofs.Xml.Grammar

/-! A quiz is written as XML, whatever its questions are. Only the characters of their texts and
tags may be none of XML: what is written besides them is plain. -/
set_option autoImplicit false

namespace Quizdown

def Text.isPlain (s : Text) : Bool := s.all fun c => 0x20 ≤ c.toNat && c.toNat ≤ 0x7E

def Text.isPlainName (s : Text) : Bool := Xml.isName s && isPlain s

def Answer.written (kind : Kind) (a : Answer) : Texts :=
  match kind with
  | .associativeMatching => [a.matchKey.getD [], a.matchValue.getD a.text]
  | _ => [a.text]

def Question.written (settings : Settings) (q : Question) : Texts :=
  q.name :: q.description :: Moodle.tagsOf settings q ++ q.answers.flatMap (Answer.written q.kind)

namespace Text

variable {s t : Text}

theorem isPlain_append (s t : Text) : isPlain (s ++ t) = (isPlain s && isPlain t) :=
  List.all_append

theorem isPlain_of_subset (hs : isPlain s = true) (h : t ⊆ s) : isPlain t = true :=
  List.all_eq_true.mpr fun c hc => List.all_eq_true.mp hs c (h hc)

theorem isPlain_digit {n : Nat} (h : n < 10) : isPlain [Nat.digitChar n] = true := by
  have hall : ∀ n < 10, isPlain [Nat.digitChar n] = true := by decide
  exact hall n h

theorem isPlain_ofNat (n : Nat) : isPlain (ofNat n) = true := by
  refine List.all_eq_true.mpr fun c hc => ?_
  have hdigit := HtmlWriter.isDigit_of_mem_ofNat hc
  simp only [Char.isDigit, ge_iff_le, Bool.and_eq_true, decide_eq_true_eq,
    UInt32.le_iff_toNat_le] at hdigit
  have hlow : 48 ≤ c.toNat := hdigit.1
  have hhigh : c.toNat ≤ 57 := hdigit.2
  simp only [Bool.and_eq_true, decide_eq_true_eq]
  omega

theorem isPlain_digits (n width : Nat) : isPlain (digits n width) = true := by
  induction width generalizing n with
  | zero => rfl
  | succ width ih =>
    rw [digits, isPlain_append, ih, isPlain_digit (Nat.mod_lt n (by decide)), Bool.and_self]

theorem isPlain_trimEndOf (c : Char) (hs : isPlain s = true) : isPlain (trimEndOf c s) = true := by
  refine isPlain_of_subset hs fun d hd => ?_
  rw [trimEndOf, List.mem_reverse] at hd
  exact List.mem_reverse.mp ((List.dropWhile_suffix _).mem hd)

end Text

theorem isPlain_fixedText (places : Nat) (x : Binary64) :
    Text.isPlain (x.fixedText places) = true := by
  cases x with
  | nan => rfl
  | infinite negative => cases negative <;> rfl
  | finite negative mantissa exponent =>
    have hunits (units : Nat) : Text.isPlain (Binary64.unitsText places units) = true := by
      have hpoint : Text.isPlain ['.'] = true := by decide
      rw [Binary64.unitsText, ← List.singleton_append, Text.isPlain_append, Text.isPlain_append,
        Text.isPlain_ofNat, Text.isPlain_digits, hpoint]
      rfl
    rw [Binary64.fixedText, Text.isPlain_append, hunits, Bool.and_true]
    cases negative <;> rfl

theorem isPlain_gradeText (x : Float) : Text.isPlain (gradeText x) = true := isPlain_fixedText 7 _

theorem isPlain_fractionText (x : Float) : Text.isPlain (fractionText x) = true := by
  rw [fractionText]
  split
  · decide
  · exact Text.isPlain_trimEndOf '.' (Text.isPlain_trimEndOf '0' (isPlain_fixedText 5 _))

namespace Moodle

section Sound

variable {p : Text → Prop} (hp : ∀ s, Text.isPlain s = true → p s)

include hp

theorem sound_leaf_iff {tag text : Text} (htag : Text.isPlainName tag = true) :
    (Element.leaf tag text).Sound p ↔ p text := by
  obtain ⟨hname, hplain⟩ := Bool.and_eq_true_iff.mp htag
  rw [Element.leaf, Element.sound_mk_iff hname (by simp) (by simp)]
  simp [hp tag hplain]

theorem sound_leaf {tag text : Text} (htag : Text.isPlainName tag = true)
    (htext : Text.isPlain text = true) : (Element.leaf tag text).Sound p :=
  (sound_leaf_iff hp htag).mpr (hp text htext)

/-- With plain names and values an element without text depends on what is in it. -/
theorem sound_mk_iff {tag : Text} {attributes : List (Text × Text)} {children : List Element}
    (htag : Text.isPlainName tag = true)
    (hnamed : (attributes.all fun a => Text.isPlainName a.1) = true)
    (hdistinct : (attributes.map Prod.fst).Nodup)
    (hvalues : ∀ a ∈ attributes, Text.isPlain a.2 = true) :
    (Element.mk tag attributes [] children).Sound p ↔ ∀ c ∈ children, c.Sound p := by
  obtain ⟨hname, hplain⟩ := Bool.and_eq_true_iff.mp htag
  simp only [List.all_eq_true, Text.isPlainName, Bool.and_eq_true] at hnamed
  rw [Element.sound_mk_iff hname (fun a ha => (hnamed a ha).1) hdistinct]
  have hattributes : ∀ a ∈ attributes, p a.1 ∧ p a.2 := fun a ha =>
    ⟨hp a.1 (hnamed a ha).2, hp a.2 (hvalues a ha)⟩
  rw [and_iff_right (hp tag hplain), and_iff_right hattributes, and_iff_right (hp [] rfl)]

theorem sound_node_iff {tag : Text} {children : List Element}
    (htag : Text.isPlainName tag = true) :
    (Element.node tag children).Sound p ↔ ∀ c ∈ children, c.Sound p :=
  sound_mk_iff hp htag rfl (by simp) (by simp)

theorem sound_wrapped_iff {tag text : Text} (htag : Text.isPlainName tag = true) :
    (Element.wrapped tag text).Sound p ↔ p text := by
  rw [Element.wrapped, sound_node_iff hp htag, List.forall_mem_singleton,
    sound_leaf_iff hp (by decide)]

theorem sound_formatted_iff {tag format : Text} {children : List Element}
    (htag : Text.isPlainName tag = true) (hformat : Text.isPlain format = true) :
    (Element.mk tag [("format".toList, format)] [] children).Sound p ↔
      ∀ c ∈ children, c.Sound p :=
  sound_mk_iff hp htag rfl (by simp) (by simpa using hformat)

theorem sound_emptyFeedback : emptyFeedback.Sound p :=
  (sound_formatted_iff hp (by decide) (by decide)).mpr
    (List.forall_mem_singleton.mpr (sound_leaf hp (by decide) rfl))

theorem sound_subquestion_iff {prompt answer : Text} :
    (subquestion prompt answer).Sound p ↔ p prompt ∧ p answer := by
  rw [subquestion, sound_formatted_iff hp (by decide) (by decide), List.forall_mem_cons,
    List.forall_mem_singleton, sound_leaf_iff hp (by decide), sound_wrapped_iff hp (by decide)]

theorem sound_credited_iff {credit format text : Text} (hcredit : Text.isPlain credit = true)
    (hformat : Text.isPlain format = true) :
    (Element.mk "answer".toList [("fraction".toList, credit), ("format".toList, format)] []
      [.leaf "text".toList text, emptyFeedback]).Sound p ↔ p text := by
  rw [sound_mk_iff hp (by decide) rfl (by simp) (by simpa using ⟨hcredit, hformat⟩),
    List.forall_mem_cons, List.forall_mem_singleton, sound_leaf_iff hp (by decide),
    and_iff_left (sound_emptyFeedback hp)]

theorem sound_choiceAnswer_iff {a : Answer} : (choiceAnswer a).Sound p ↔ p a.text :=
  sound_credited_iff hp (isPlain_fractionText _) (by decide)

theorem sound_shortAnswer_iff {a : Answer} : (shortAnswer a).Sound p ↔ p a.text :=
  sound_credited_iff hp (isPlain_fractionText _) (by decide)

theorem sound_numericalAnswer_iff {a : Answer} : (numericalAnswer a).Sound p ↔ p a.text := by
  have htolerance :
      (Element.leaf "tolerance".toList (fractionText (a.tolerance.getD 0.0))).Sound p :=
    sound_leaf hp (by decide) (isPlain_fractionText _)
  rw [numericalAnswer, sound_mk_iff hp (by decide) rfl (by simp) (by simp [isPlain_fractionText]),
    List.forall_mem_cons, List.forall_mem_cons, List.forall_mem_singleton,
    sound_leaf_iff hp (by decide), and_iff_left ⟨htolerance, sound_emptyFeedback hp⟩]

theorem sound_enumeratedPairs_iff {n : Nat} {answers : List Answer} :
    (∀ e ∈ enumeratedPairs n answers, e.Sound p) ↔ ∀ a ∈ answers, p a.text := by
  induction answers generalizing n with
  | nil => simp [enumeratedPairs]
  | cons a answers ih =>
    have hprompt : p (Text.ofNat (a.orderIndex.getD (n + 1)) ++ ['.']) :=
      hp _ (by rw [Text.isPlain_append, Text.isPlain_ofNat]; rfl)
    rw [enumeratedPairs, List.forall_mem_cons, List.forall_mem_cons, ih, sound_subquestion_iff hp,
      and_iff_right hprompt]

theorem sound_kindElements_iff {q : Question} : (∀ e ∈ kindElements q, e.Sound p) ↔
    ∀ a ∈ q.answers, ∀ t ∈ a.written q.kind, p t := by
  have hflag (b : Bool) : Text.isPlain (flag b) = true := by cases b <;> rfl
  have hshuffle (b : Bool) : (Element.leaf "shuffleanswers".toList (flag b)).Sound p :=
    sound_leaf hp (by decide) (hflag b)
  have hsingle (b : Bool) : (Element.leaf "single".toList (flag b)).Sound p :=
    sound_leaf hp (by decide) (hflag b)
  have hnumbering (n : Numbering) :
      (Element.leaf "answernumbering".toList n.moodleToken).Sound p :=
    sound_leaf hp (by decide) (by cases n <;> rfl)
  have husecase : (Element.leaf "usecase".toList ['0']).Sound p := sound_leaf hp (by decide) rfl
  unfold kindElements Answer.written
  cases q.kind <;>
    simp only [associativePair, List.forall_mem_append, List.forall_mem_cons, List.forall_mem_map,
      List.not_mem_nil, false_implies, implies_true, and_true, true_and, hshuffle, hsingle,
      hnumbering, husecase, sound_choiceAnswer_iff hp, sound_enumeratedPairs_iff hp,
      sound_subquestion_iff hp, sound_shortAnswer_iff hp, sound_numericalAnswer_iff hp]

theorem sound_question_iff {settings : Settings} {q : Question} :
    (question settings q).Sound p ↔ ∀ t ∈ q.written settings, p t := by
  have htype : Text.isPlain q.kind.moodleType = true := by cases q.kind <;> rfl
  have hname : (Element.wrapped "name".toList q.name).Sound p ↔ p q.name :=
    sound_wrapped_iff hp (by decide)
  have hdescription : ((Element.wrapped "questiontext".toList q.description).withAttribute
      "format".toList "html".toList).Sound p ↔ p q.description :=
    (sound_formatted_iff hp (by decide) (by decide)).trans
      (by rw [List.forall_mem_singleton, sound_leaf_iff hp (by decide)])
  have hgrade : (Element.leaf "defaultgrade".toList (gradeText settings.defaultGrade)).Sound p :=
    sound_leaf hp (by decide) (isPlain_gradeText _)
  have hpenalty : (Element.leaf "penalty".toList (gradeText settings.penalty)).Sound p :=
    sound_leaf hp (by decide) (isPlain_gradeText _)
  have hhidden : (Element.leaf "hidden".toList ['0']).Sound p := sound_leaf hp (by decide) rfl
  have htags : (Element.node "tags".toList ((tagsOf settings q).map
      (Element.wrapped "tag".toList))).Sound p ↔ ∀ t ∈ tagsOf settings q, p t := by
    rw [sound_node_iff hp (by decide), List.forall_mem_map]
    exact forall₂_congr fun t _ => sound_wrapped_iff hp (by decide)
  rw [question, sound_mk_iff hp (by decide) rfl (by simp) (by simpa using htype),
    List.forall_mem_append, sound_kindElements_iff hp]
  simp only [Question.written, List.forall_mem_cons, List.forall_mem_append,
    List.forall_mem_flatMap, List.not_mem_nil, false_implies, implies_true, and_true, true_and,
    and_assoc, hname, hdescription, htags, hhidden, hgrade, hpenalty]

/-- In a quiz nothing but the texts of the questions and their tags can be at fault. -/
theorem sound_quiz_iff {settings : Settings} {qs : List Question} :
    (quiz settings qs).Sound p ↔ ∀ q ∈ qs, ∀ t ∈ q.written settings, p t := by
  rw [quiz, sound_node_iff hp (by decide), List.forall_mem_map]
  exact forall₂_congr fun q _ => sound_question_iff hp

end Sound

end Moodle

theorem Xml.allowed_of_isPlain {s : Text} (h : Text.isPlain s = true) : Allowed s := by
  intro c hc
  have hplain := List.all_eq_true.mp h c hc
  simp only [Bool.and_eq_true, decide_eq_true_eq] at hplain
  have hhigh : c.toNat ≤ 0xD7FF := by omega
  simp [isChar, hplain.1, hhigh]

theorem isDocument_renderQuiz (settings : Settings) (qs : List Question) :
    Xml.IsDocument (renderQuiz settings qs) :=
  Xml.isDocument_document (p := fun _ => True)
    ((Moodle.sound_quiz_iff fun _ _ => trivial).mpr fun _ _ _ _ => trivial)

theorem wellFormed_renderQuiz_iff {settings : Settings} {qs : List Question} :
    Xml.WellFormed (renderQuiz settings qs) ↔
      ∀ q ∈ qs, ∀ t ∈ q.written settings, Xml.Allowed t := by
  have hsound : (Moodle.quiz settings qs).Sound fun _ => True :=
    (Moodle.sound_quiz_iff fun _ _ => trivial).mpr fun _ _ _ _ => trivial
  rw [renderQuiz, Xml.wellFormed_document_iff hsound]
  exact Moodle.sound_quiz_iff fun _ => Xml.allowed_of_isPlain

/-- The XML of a document has one root and balanced tags, and markup is escaped in it, whatever the
document is. It is well formed exactly if the texts that are shown hold no other characters than
those of XML. -/
theorem convertQuiz_wellFormed_iff {settings : Settings} {source xml : Text}
    (h : convertQuiz settings source = .ok xml) :
    Xml.IsDocument xml ∧ ∃ qs, parseQuiz settings source = .ok qs ∧
      (Xml.WellFormed xml ↔ ∀ q ∈ qs, ∀ t ∈ q.written settings, Xml.Allowed t) := by
  rw [convertQuiz] at h
  cases hparse : parseQuiz settings source with
  | error e =>
    rw [hparse] at h
    cases h
  | ok qs =>
    rw [hparse] at h
    cases h
    exact ⟨isDocument_renderQuiz settings qs, qs, rfl, wellFormed_renderQuiz_iff⟩

theorem convertQuiz_wellFormed_markup :
    let settings : Settings := { tags := { general := ["R&D".toList] } }
    let source := "Is \"a < b\" & `c`?\n\n- [x] <i>yes</i>\n- [ ] no\n".toList
    ∃ xml, convertQuiz settings source = .ok xml ∧ Xml.WellFormed xml := by
  intro settings source
  have htexts : (parseQuiz settings source).map (List.map fun q => q.written settings) =
      .ok [["Is \"a < b\" & c?".toList,
        "<p>Is \"a &lt; b\" &amp; <code>c</code>?</p>".toList, "R&D".toList,
        "<i>yes</i>".toList, "no".toList]] := by
    decide +kernel
  cases hparse : parseQuiz settings source with
  | error e =>
    rw [hparse] at htexts
    cases htexts
  | ok qs =>
    have hconvert : convertQuiz settings source = .ok (renderQuiz settings qs) := by
      rw [convertQuiz, hparse]
      rfl
    obtain ⟨-, qs', hqs, hiff⟩ := convertQuiz_wellFormed_iff hconvert
    rw [hqs] at htexts
    have hwritten := Except.ok.inj htexts
    refine ⟨_, hconvert, hiff.mpr fun q hq => ?_⟩
    have hmem : q.written settings ∈ qs'.map fun q => q.written settings := List.mem_map_of_mem hq
    rw [hwritten, List.mem_singleton] at hmem
    rw [hmem]
    decide

/-- A control character of the document is written as it is. -/
theorem convertQuiz_control_illFormed :
    ∃ xml, convertQuiz {} "What is \x01?\n\n- 4\n".toList = .ok xml ∧ ¬ Xml.WellFormed xml := by
  have hnames : (parseQuiz {} "What is \x01?\n\n- 4\n".toList).map (List.map fun q => q.name) =
      .ok ["What is \x01?".toList] := by
    decide +kernel
  cases hparse : parseQuiz {} "What is \x01?\n\n- 4\n".toList with
  | error e =>
    rw [hparse] at hnames
    cases hnames
  | ok qs =>
    refine ⟨renderQuiz {} qs, by rw [convertQuiz, hparse]; rfl, fun hxml => ?_⟩
    rw [hparse] at hnames
    have hname : "What is \x01?".toList ∈ qs.map fun q => q.name := by
      rw [Except.ok.inj hnames]
      exact List.mem_singleton_self _
    obtain ⟨q, hq, heq⟩ := List.mem_map.mp hname
    have hallowed := wellFormed_renderQuiz_iff.mp hxml q hq q.name (List.mem_cons_self ..)
    rw [heq] at hallowed
    exact absurd hallowed (by decide)

end Quizdown
