import Quizdown.Document.Reader
import Quizdown.Proofs.Assembly.State

/-! Each question of a document, from its own list and lead: nothing of a question reaches another
one but the tags above both. -/
set_option autoImplicit false

namespace Quizdown
namespace Assembly

variable {settings : Settings} {before rest : List Block}

theorem accepted_of_continuesAll (h : ContinuesAll settings before rest) :
    ∀ b ∈ rest, ∀ d ∈ b.kind.directives, d.accepted = true := by
  induction rest generalizing before with
  | nil => intro b hb; cases hb
  | cons b rest ih =>
    obtain ⟨hb, hrest⟩ := h
    intro c hc
    cases hc with
    | tail _ hc => exact ih hrest c hc
    | head =>
      cases hk : b.kind with
      | heading | list => simp [BlockKind.directives]
      | _ => simpa [Continues, hk] using hb

theorem mem_of_mem_openLead {b : Block} (h : b ∈ openLead before) : b ∈ before := by
  have hmem := List.mem_reverse.mp h
  exact List.mem_reverse.mp ((List.takeWhile_sublist _).mem hmem)

theorem applyAll_openLead (h : ContinuesAll settings [] before) :
    Directive.applyAll (Lead.directives (openLead before)) settings.questionConfig =
      .ok (Lead.config settings (openLead before)) := by
  refine Directive.applyAll_eq_ok_iff.mpr ⟨fun d hd => ?_, rfl⟩
  obtain ⟨b, hb, hd⟩ := List.mem_flatMap.mp hd
  exact accepted_of_continuesAll h b (mem_of_mem_openLead hb) d hd

theorem getElem?_questionsFrom {b : Block} (hbefore : ContinuesAll settings [] before) :
    (questionsFrom settings [] (before ++ b :: rest))[before.countP fun c => c.kind.isList]? =
      ((questionAt settings before b).toList ++
        questionsFrom settings (before ++ [b]) rest)[0]? := by
  have hlength := length_questionsFrom hbefore
  rw [questionsFrom_append, List.getElem?_append_right (by omega), hlength, Nat.sub_self]
  rfl

end Assembly

theorem exists_question_of_list {settings : Settings} {d : Document} {qs : List Question}
    (h : assemble settings d = .ok qs) {before after : List Block} {b : Block} {list : AnswerList}
    (hcontent : d.content = before ++ b :: after) (hlist : b.kind = .list list) :
    ∃ forceMulti c q, list.classify forceMulti settings.matchingSeparator = .ok c ∧
      qs[before.countP fun b => b.kind.isList]? = some q ∧
      q.kind = c.kind ∧ q.answers = c.answers := by
  obtain ⟨hall, -, rfl⟩ := assemble_eq_ok_iff.mp h
  rw [hcontent, Assembly.continuesAll_append] at hall
  obtain ⟨hbefore, hb, -⟩ := hall
  simp only [List.nil_append, Assembly.Continues, hlist] at hb
  obtain ⟨c, hc⟩ := hb.classified
  obtain ⟨name, hname⟩ := Option.isSome_iff_exists.mp (Lead.name?_isSome_iff.mpr hb.named)
  obtain ⟨q, hq, hkind, hanswers⟩ : ∃ q, Assembly.questionAt settings before b = some q ∧
      q.kind = c.kind ∧ q.answers = c.answers := by
    simp [Assembly.questionAt, hlist, Lead.question?, hc, hname]
  refine ⟨_, c, q, hc, ?_, hkind, hanswers⟩
  rw [hcontent, Assembly.getElem?_questionsFrom hbefore, hq]
  rfl

/-- A document has one question for each list, in order. The question of a list is made of the
blocks since the list or tag heading before it, and its tags are those of the tag heading. -/
theorem assemble_question {settings : Settings} {d : Document} {qs : List Question}
    (h : assemble settings d = .ok qs) :
    qs.length = d.visibleBlocks.countP (fun b => b.kind.isList) ∧
    ∀ before b list after, d.content = before ++ b :: after → b.kind = .list list →
      ∃ config c name,
        Directive.applyAll (Lead.directives (openLead before)) settings.questionConfig =
          .ok config ∧
        list.classify config.forceMulti settings.matchingSeparator = .ok c ∧
        Lead.name? (openLead before) = some name ∧
        qs[before.countP fun b => b.kind.isList]? =
          some
            { name := name
              tags := tagsAt before
              description := Lead.description (openLead before)
              kind := c.kind
              answers := c.answers
              config := config
              line := (Lead.place (openLead before)).line } := by
  obtain ⟨hall, -, rfl⟩ := assemble_eq_ok_iff.mp h
  refine ⟨by rw [Assembly.length_questionsFrom hall, Document.countP_content], ?_⟩
  intro before b list after hcontent hk
  rw [hcontent, Assembly.continuesAll_append] at hall
  obtain ⟨hbefore, hb, -⟩ := hall
  simp only [List.nil_append, Assembly.Continues, hk] at hb
  obtain ⟨c, hc⟩ := hb.classified
  obtain ⟨name, hname⟩ := Option.isSome_iff_exists.mp (Lead.name?_isSome_iff.mpr hb.named)
  refine ⟨_, c, name, Assembly.applyAll_openLead hbefore, hc, hname, ?_⟩
  rw [hcontent, Assembly.getElem?_questionsFrom hbefore]
  simp [Assembly.questionAt, hk, Lead.question?, hc, hname]

def twoQuestions : Document where
  blocks :=
    [⟨.heading 1 "A, B".toList, ⟨0, 6⟩, 1, 1⟩,
     ⟨.heading 2 "N".toList, ⟨8, 12⟩, 3, 2⟩,
     ⟨.paragraph "<p>Q @shuffle=no</p>".toList "Q @shuffle=no".toList, ⟨14, 27⟩, 5, 3⟩,
     ⟨.list ⟨false, [⟨"42".toList, "42".toList, none⟩]⟩, ⟨29, 33⟩, 7, 4⟩,
     ⟨.rule, ⟨35, 38⟩, 9, 5⟩,
     ⟨.paragraph "<p>Next?</p>".toList "Next?".toList, ⟨40, 45⟩, 11, 6⟩,
     ⟨.list ⟨false, [⟨"x".toList, "x".toList, none⟩]⟩, ⟨47, 50⟩, 13, 7⟩]
  commentSpans := []

theorem assemble_question_second :
    ∃ qs q, assemble {} twoQuestions = .ok qs ∧ qs.length = 2 ∧ qs[1]? = some q ∧
      q.name = "Next?".toList ∧ q.tags = ["A".toList, "B".toList] ∧
      q.description = "<p>Next?</p>".toList ∧ q.config = Settings.questionConfig {} ∧
      q.line = 11 := by
  obtain ⟨qs, h⟩ : ∃ qs, assemble {} twoQuestions = .ok qs := ⟨_, rfl⟩
  obtain ⟨hlength, hquestion⟩ := assemble_question h
  obtain ⟨config, c, name, hconfig, -, hname, hget⟩ :=
    hquestion (twoQuestions.content.take 5) _ _ [] rfl rfl
  have hconfig' : config = Settings.questionConfig {} := (Except.ok.inj hconfig).symm
  have hname' : name = "Next?".toList := (Option.some.inj hname).symm
  exact ⟨qs, _, h, hlength, hget, hname', rfl, rfl, hconfig', rfl⟩

/-- What the name of a question would be if every paragraph counted for it. -/
def Lead.nameOfAll? (lead : List Block) : Option Text :=
  let text (b : Block) : Text :=
    match b.kind with
    | .paragraph html text =>
      Text.trim (Directive.removeFrom (Directive.extract html).directives text)
    | k => k.plainText
  if (title lead).isEmpty then
    deriveName? (Text.join [' '] ((lead.map text).filter fun t => !t.isEmpty))
  else some (title lead)

/-- A paragraph of directives does not count for the name, not even where a token of it is escaped
in the HTML and therefore stays in the plain text. -/
theorem directive_paragraph_not_in_name :
    let d := Document.read "@foo=a&b\n\nWhat is it?\n\n- [x] a\n- [ ] b\n".toList
    (assemble {} d).map (List.map Question.name) = .ok ["What is it?".toList] ∧
      (d.content.drop 2).map (fun b => b.kind.isList) = [true] ∧
      Lead.nameOfAll? (openLead (d.content.take 2)) = some "@foo=a&b What is it?".toList := by
  decide +kernel

end Quizdown
