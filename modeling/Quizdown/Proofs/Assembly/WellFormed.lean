import Quizdown.Converter
import Quizdown.Proofs.AnswerList.Shape
import Quizdown.Proofs.Assembly.State

/-! What holds of every question a document yields, whatever the document and the settings. -/
set_option autoImplicit false

namespace Quizdown

/-- A question that can be shown and graded: named, described, with clean tags and with the answers
of its kind. -/
structure Question.WellFormed (q : Question) : Prop where
  name_ne_nil : q.name ≠ []
  name_trimmed : Text.Trimmed q.name
  described : Text.isAllBlank q.description = false
  tags_nodup : q.tags.Nodup
  tags_clean : ∀ t ∈ q.tags, t ≠ [] ∧ Text.Trimmed t ∧ ',' ∉ t
  answers : q.kind.WellShaped q.answers

theorem Text.trimmed_nil : Text.Trimmed [] := ⟨by simp, by simp⟩

namespace Lead

theorem trimmed_title (lead : List Block) : Text.Trimmed (title lead) := by
  unfold title
  split
  · exact Text.trimmed_trim _
  · exact Text.trimmed_nil

theorem name?_trimmed {lead : List Block} {name : Text} (h : name? lead = some name) :
    name ≠ [] ∧ Text.Trimmed name := by
  rw [name?] at h
  split at h
  · exact deriveName?_trimmed h
  · rename_i hne
    cases h
    exact ⟨by simpa using hne, trimmed_title lead⟩

end Lead

theorem tagsAt_clean (before : List Block) :
    (tagsAt before).Nodup ∧ ∀ t ∈ tagsAt before, t ≠ [] ∧ Text.Trimmed t ∧ ',' ∉ t := by
  rw [tagsAt]
  cases before.reverse.findSome? fun b => b.kind.tagText? with
  | none => simp
  | some heading => exact splitTags_clean heading

theorem Lead.CompletedBy.wellFormed {settings : Settings} {list : AnswerList} {lead : List Block}
    {before : List Block} {q : Question} (h : CompletedBy settings list lead)
    (hq : question? settings (tagsAt before) lead list = some q) : q.WellFormed := by
  obtain ⟨hnodup, hclean⟩ := tagsAt_clean before
  unfold question? at hq
  split at hq
  · rename_i c name hc hname
    cases hq
    obtain ⟨hne, htrimmed⟩ := name?_trimmed hname
    exact ⟨hne, htrimmed, h.described, hnodup, hclean, AnswerList.wellShaped_of_classify hc⟩
  · cases hq

theorem wellFormed_of_mem_assemble {settings : Settings} {d : Document} {qs : List Question}
    (h : assemble settings d = .ok qs) : ∀ q ∈ qs, q.WellFormed := by
  obtain ⟨hall, -, rfl⟩ := assemble_eq_ok_iff.mp h
  intro q hq
  obtain ⟨before, list, -, hcompleted, hquestion⟩ :=
    Assembly.exists_completed_of_mem_questionsFrom hall hq
  exact hcompleted.wellFormed hquestion

/-- Every question that is parsed has a name, a description, clean tags, and answers of the shape of
its kind without the fields of other kinds. -/
theorem parseQuiz_wellFormed {settings : Settings} {source : Text} {qs : List Question}
    (h : parseQuiz settings source = .ok qs) : ∀ q ∈ qs, q.WellFormed :=
  wellFormed_of_mem_assemble h

theorem parseQuiz_wellFormed_mixed :
    let source := "# A, B ,,A\n\nPick.\n\n- [x] a\n- [ ] b\n\n".toList ++
      "All?\n\n- [x] a\n- [x] b\n\nMatch.\n\n- k: v\n- l: w\n\nHow much?\n\n- 4 +- 1\n\nWho?\n\n- me\n".toList
    ∃ qs, parseQuiz {} source = .ok qs ∧
      qs.map (fun q => (q.kind, q.tags)) =
        [.singleChoice, .multipleChoice, .associativeMatching, .numerical, .shortAnswer].map
          (fun kind => (kind, ["A".toList, "B".toList])) ∧
      ∀ q ∈ qs, q.WellFormed := by
  intro source
  have hkinds : (parseQuiz {} source).map (List.map fun q => (q.kind, q.tags)) =
      .ok ([.singleChoice, .multipleChoice, .associativeMatching, .numerical, .shortAnswer].map
        (fun kind => (kind, ["A".toList, "B".toList]))) := by
    decide +kernel
  cases hparse : parseQuiz {} source with
  | error e =>
    rw [hparse] at hkinds
    cases hkinds
  | ok qs =>
    rw [hparse] at hkinds
    exact ⟨qs, rfl, Except.ok.inj hkinds, parseQuiz_wellFormed hparse⟩

end Quizdown
