import Quizdown.Proofs.Assembly.Group

/-! The state of the assembly as a function of the blocks read so far. A step succeeds exactly if
its block can follow those before it, and leads to the state after one block more; so a run
succeeds exactly if every block of it can follow the blocks before. -/
set_option autoImplicit false

namespace Quizdown

namespace Lead

def draft (settings : Settings) (tags : Texts) (lead : List Block) : Draft where
  name := if (title lead).isEmpty then none else some (title lead)
  tags := tags
  description := description lead
  plain := plain lead
  config := config settings lead
  directives := directives lead
  location := place lead

structure CompletedBy (settings : Settings) (list : AnswerList) (lead : List Block) : Prop where
  described : Text.isAllBlank (description lead) = false
  classified : ∃ c,
    list.classify (config settings lead).forceMulti settings.matchingSeparator = .ok c
  named : title lead ≠ [] ∨ Text.isAllBlank (plain lead) = false

theorem CompletedBy.ne_nil {settings : Settings} {list : AnswerList} {lead : List Block}
    (h : CompletedBy settings list lead) : lead ≠ [] := by
  rintro rfl
  exact absurd h.described (by decide)

theorem CompletedBy.question?_isSome {settings : Settings} {list : AnswerList}
    {lead : List Block} (h : CompletedBy settings list lead) (tags : Texts) :
    ∃ q, question? settings tags lead list = some q := by
  obtain ⟨c, hc⟩ := h.classified
  obtain ⟨name, hn⟩ := Option.isSome_iff_exists.mp (name?_isSome_iff.mpr h.named)
  simp [question?, hc, hn]

end Lead

namespace Assembly

def questionAt (settings : Settings) (before : List Block) (b : Block) : Option Question :=
  match b.kind with
  | .list list => Lead.question? settings (tagsAt before) (openLead before) list
  | _ => none

/-- The questions that the later blocks complete. -/
def questionsFrom (settings : Settings) : List Block → List Block → List Question
  | _, [] => []
  | before, b :: rest =>
    (questionAt settings before b).toList ++ questionsFrom settings (before ++ [b]) rest

def stateAfter (settings : Settings) (before : List Block) : Assembly where
  tags := tagsAt before
  draft :=
    if (openLead before).isEmpty then none
    else some (Lead.draft settings (tagsAt before) (openLead before))
  questions := questionsFrom settings [] before
  afterList := before.getLast?.any fun b => b.kind.isList

def Continues (settings : Settings) (before : List Block) (b : Block) : Prop :=
  match b.kind with
  | .heading _ _ => openLead before = []
  | .list list => Lead.CompletedBy settings list (openLead before)
  | _ => ∀ d ∈ b.kind.directives, d.accepted = true

def ContinuesAll (settings : Settings) : List Block → List Block → Prop
  | _, [] => True
  | before, b :: rest =>
    Continues settings before b ∧ ContinuesAll settings (before ++ [b]) rest

variable {settings : Settings} {before rest : List Block} {b : Block}

theorem questionsFrom_append (settings : Settings) (before xs ys : List Block) :
    questionsFrom settings before (xs ++ ys) =
      questionsFrom settings before xs ++ questionsFrom settings (before ++ xs) ys := by
  induction xs generalizing before with
  | nil => simp [questionsFrom]
  | cons x xs ih => simp [questionsFrom, ih]

theorem questionsFrom_concat (settings : Settings) (before : List Block) (b : Block) :
    questionsFrom settings [] (before ++ [b]) =
      questionsFrom settings [] before ++ (questionAt settings before b).toList := by
  simp [questionsFrom_append, questionsFrom]

theorem complete_eq_ok_iff {tags : Texts} {lead : List Block} {place : Location}
    {list : AnswerList} {q : Question} :
    complete settings (Lead.draft settings tags lead) place list = .ok q ↔
      Lead.CompletedBy settings list lead ∧
        Lead.question? settings tags lead list = some q := by
  have hname : ((Lead.draft settings tags lead).name.orElse fun _ =>
      deriveName? (Lead.draft settings tags lead).plain) = Lead.name? lead := by
    by_cases h : Lead.title lead = [] <;> simp [Lead.draft, Lead.name?, h]
  have hconfig : (Lead.draft settings tags lead).config = Lead.config settings lead := rfl
  have hdescription : (Lead.draft settings tags lead).description = Lead.description lead := rfl
  rw [complete, hname, hconfig, hdescription, Lead.question?]
  by_cases hd : Text.isAllBlank (Lead.description lead) = true
  · refine ⟨by simp [hd], fun h => ?_⟩
    have hdescribed := h.1.described
    simp [hd] at hdescribed
  · rw [if_neg hd]
    cases hc : list.classify (Lead.config settings lead).forceMulti
        settings.matchingSeparator with
    | error e => simp
    | ok c =>
      cases hn : Lead.name? lead with
      | none => simp
      | some name =>
        have hnamed := Lead.name?_isSome_iff.mp (by rw [hn]; rfl : (Lead.name? lead).isSome = true)
        have hcompleted : Lead.CompletedBy settings list lead :=
          ⟨by simpa using hd, ⟨c, hc⟩, hnamed⟩
        simp [hcompleted, Lead.draft]

theorem openDraft_stateAfter (settings : Settings) (before : List Block) (b : Block) :
    (stateAfter settings before).openDraft settings (placeOf b) =
      { Lead.draft settings (tagsAt before) (openLead before) with
        location := Lead.place (openLead before ++ [b]) } := by
  cases h : openLead before with
  | nil => simp [openDraft, stateAfter, h, newDraft, Lead.draft, Lead.title, Lead.config,
      Lead.directives, Lead.description, Lead.plain, Lead.place]
  | cons first more => simp [openDraft, stateAfter, h, Lead.draft, Lead.place]

/-- Adding what a block adds to a draft gives the draft of the longer lead. -/
theorem draft_concat (settings : Settings) (tags : Texts) (lead : List Block)
    (hb : b.kind.isDescription = true) :
    Lead.draft settings tags (lead ++ [b]) =
      Draft.append
        { Lead.draft settings tags lead with
          config := Directive.resolved b.kind.directives (Lead.config settings lead)
          directives := Lead.directives lead ++ b.kind.directives
          location := Lead.place (lead ++ [b]) }
        b.kind.descriptionHtml b.kind.plainText := by
  have htitle : Lead.title (lead ++ [b]) = Lead.title lead := by
    cases lead with
    | nil =>
      obtain ⟨kind, span, line, index⟩ := b
      cases kind <;> simp_all [Lead.title, BlockKind.isDescription]
    | cons first more => exact Lead.title_append (by simp)
  simp [Lead.draft, Draft.append, htitle, Lead.plain_concat, Lead.config_append,
    Lead.description, Lead.directives]

theorem addParagraph_eq_ok_iff {d result : Draft} {html text : Text} :
    addParagraph d html text = .ok result ↔
      (∀ e ∈ (BlockKind.paragraph html text).directives, e.accepted = true) ∧
        Draft.append
          { d with
            config := Directive.resolved (BlockKind.paragraph html text).directives d.config
            directives := d.directives ++ (BlockKind.paragraph html text).directives }
          (BlockKind.paragraph html text).descriptionHtml
          (BlockKind.paragraph html text).plainText = result := by
  simp only [addParagraph_eq, BlockKind.directives, BlockKind.descriptionHtml, BlockKind.plainText,
    Directive.strip]
  cases h : Directive.applyAll (Directive.extract html).directives d.config with
  | error e =>
    have hno : ¬ ∀ e ∈ (Directive.extract html).directives, e.accepted = true := fun hall => by
      have hok : Directive.applyAll (Directive.extract html).directives d.config = .ok _ :=
        Directive.applyAll_eq_ok_iff.mpr ⟨hall, rfl⟩
      rw [h] at hok
      cases hok
    rw [iff_false_right (fun hr => hno hr.1)]
    exact fun hr => nomatch hr
  | ok config =>
    obtain ⟨hall, rfl⟩ := Directive.applyAll_eq_ok_iff.mp h
    rw [and_iff_right hall]
    by_cases he : isEmptyParagraph (Directive.extract html).text = true <;>
      simp [he, Draft.append]

theorem stateAfter_concat (settings : Settings) (before : List Block) (hb : b.kind.opens = true) :
    stateAfter settings (before ++ [b]) =
      { stateAfter settings before with
        draft := some (Lead.draft settings (tagsAt before) (openLead before ++ [b]))
        afterList := false } := by
  have hc := BlockKind.opens_not_closes hb
  have htag : b.kind.tagText? = none := by
    simpa [BlockKind.isTagHeading] using (Bool.or_eq_false_iff.mp hc).1
  have hlist : b.kind.isList = false := (Bool.or_eq_false_iff.mp hc).2
  have hq : questionAt settings before b = none := by
    obtain ⟨kind, span, line, index⟩ := b
    cases kind <;> simp_all [questionAt, BlockKind.isList]
  simp [stateAfter, openLead_concat, tagsAt_concat, questionsFrom_concat, hc, htag, hlist, hq]

theorem stateAfter_concat_tags (settings : Settings) (before : List Block) {text : Text}
    (hb : b.kind.tagText? = some text) (hopen : openLead before = []) :
    stateAfter settings (before ++ [b]) =
      { stateAfter settings before with tags := splitTags text, afterList := false } := by
  have hc : b.kind.closes = true := by simp [BlockKind.closes, BlockKind.isTagHeading, hb]
  have hlist : b.kind.isList = false ∧ questionAt settings before b = none := by
    obtain ⟨kind, span, line, index⟩ := b
    cases kind <;> simp_all [questionAt, BlockKind.isList, BlockKind.tagText?]
  simp [stateAfter, openLead_concat, tagsAt_concat, questionsFrom_concat, hc, hb, hlist, hopen]

theorem stateAfter_concat_list (settings : Settings) (before : List Block) {list : AnswerList}
    (hb : b.kind = .list list) :
    stateAfter settings (before ++ [b]) =
      { stateAfter settings before with
        draft := none
        questions := (stateAfter settings before).questions ++
          (Lead.question? settings (tagsAt before) (openLead before) list).toList
        afterList := true } := by
  simp [stateAfter, openLead_concat, tagsAt_concat, questionsFrom_concat, questionAt, hb,
    BlockKind.closes, BlockKind.isTagHeading, BlockKind.isList, BlockKind.tagText?]

theorem stateAfter_draft (settings : Settings) (before : List Block) :
    (stateAfter settings before).draft =
      if (openLead before).isEmpty then none
      else some (Lead.draft settings (tagsAt before) (openLead before)) := rfl

theorem step_heading_eq_ok_iff {level : Nat} {text : Text} (hk : b.kind = .heading level text)
    {a : Assembly} :
    (stateAfter settings before).step settings b = .ok a ↔
      openLead before = [] ∧ stateAfter settings (before ++ [b]) = a := by
  by_cases ho : openLead before = []
  · by_cases hl : level = 1
    · have htag : b.kind.tagText? = some text := by simp [hk, BlockKind.tagText?, hl]
      have hstate := stateAfter_concat_tags settings before htag ho
      simp [step, hk, hl, stateAfter_draft, ho, hstate]
    · have hname : b.kind.isNameHeading = true := by simp [hk, BlockKind.isNameHeading, hl]
      have hstate := stateAfter_concat settings before (BlockKind.isNameHeading_opens hname)
      obtain ⟨kind, span, line, index⟩ := b
      subst hk
      have hnew : (stateAfter settings before).newDraft settings ⟨line, index⟩
          (if (Text.trim text).isEmpty then none else some (Text.trim text)) =
            Lead.draft settings (tagsAt before) [⟨.heading level text, span, line, index⟩] := by
        simp [newDraft, Lead.draft, Lead.title, Lead.config, Lead.directives, Lead.description,
          Lead.plain, Lead.place, stateAfter, placeOf, BlockKind.directives,
          BlockKind.descriptionHtml, BlockKind.plainText]
      simp only [step, placeOf, stateAfter_draft, ho, hl, if_false, hnew, hstate]
      simp
  · by_cases hl : level = 1 <;> simp [step, hk, stateAfter_draft, ho, hl]

theorem step_description_eq_ok_iff (hb : b.kind.isDescription = true) {a : Assembly} :
    (stateAfter settings before).step settings b = .ok a ↔
      (∀ d ∈ b.kind.directives, d.accepted = true) ∧
        stateAfter settings (before ++ [b]) = a := by
  have hstate := stateAfter_concat settings before (BlockKind.isDescription_opens hb)
  rw [draft_concat settings _ _ hb] at hstate
  rw [hstate]
  cases hk : b.kind with
  | heading | list | rule | comment => simp [hk, BlockKind.isDescription] at hb
  | paragraph html text =>
    simp only [step, hk, openDraft_stateAfter]
    by_cases hall : ∀ e ∈ (BlockKind.paragraph html text).directives, e.accepted = true
    · rw [addParagraph_eq_ok_iff.mpr ⟨hall, rfl⟩, and_iff_right hall]
      simp [Lead.draft]
    · rw [iff_false_right fun h => hall h.1]
      split
      · simp
      · rename_i d hd
        exact absurd (addParagraph_eq_ok_iff.mp hd).1 hall
  | code html text | rich html text =>
    simp [step, hk, openDraft_stateAfter, BlockKind.directives, BlockKind.descriptionHtml,
      BlockKind.plainText, Lead.draft]

theorem step_list_eq_ok_iff {list : AnswerList} (hk : b.kind = .list list) {a : Assembly} :
    (stateAfter settings before).step settings b = .ok a ↔
      Lead.CompletedBy settings list (openLead before) ∧
        stateAfter settings (before ++ [b]) = a := by
  have hstate := stateAfter_concat_list settings before hk
  by_cases hc : Lead.CompletedBy settings list (openLead before)
  · obtain ⟨q, hq⟩ := hc.question?_isSome (tagsAt before)
    have hcomplete : complete settings _ (placeOf b) list = .ok q := complete_eq_ok_iff.mpr ⟨hc, hq⟩
    simp [step, hk, stateAfter_draft, hc.ne_nil, hcomplete, hc, hstate, hq]
  · rw [iff_false_right fun h => hc h.1]
    by_cases ho : openLead before = []
    · simp [step, hk, stateAfter_draft, ho]
    · simp only [step, hk, stateAfter_draft, List.isEmpty_iff, ho, if_false]
      split
      · simp
      · rename_i q hq
        exact absurd (complete_eq_ok_iff.mp hq).1 hc

/-- The inversion of a step: a block leads on exactly if it can follow the blocks before it, and
then to the state after one block more. -/
theorem step_eq_ok_iff (hb : b.kind.counts = true) {a : Assembly} :
    (stateAfter settings before).step settings b = .ok a ↔
      Continues settings before b ∧ stateAfter settings (before ++ [b]) = a := by
  cases hk : b.kind with
  | heading level text => simpa [Continues, hk] using step_heading_eq_ok_iff hk
  | paragraph html text | code html text | rich html text =>
    have hd : b.kind.isDescription = true := by rw [hk]; rfl
    simpa [Continues, hk] using step_description_eq_ok_iff hd
  | list list => simpa [Continues, hk] using step_list_eq_ok_iff hk
  | rule | comment =>
    rw [hk] at hb
    cases hb

theorem continuesAll_append (settings : Settings) (before xs ys : List Block) :
    ContinuesAll settings before (xs ++ ys) ↔
      ContinuesAll settings before xs ∧ ContinuesAll settings (before ++ xs) ys := by
  induction xs generalizing before with
  | nil => simp [ContinuesAll]
  | cons x xs ih => simp [ContinuesAll, ih, and_assoc]

theorem steps_eq_ok_iff (hcounts : ∀ b ∈ rest, b.kind.counts = true) {a : Assembly} :
    (stateAfter settings before).steps settings rest = .ok a ↔
      ContinuesAll settings before rest ∧ stateAfter settings (before ++ rest) = a := by
  induction rest generalizing before with
  | nil => simp [steps, ContinuesAll]
  | cons b rest ih =>
    have hb : b.kind.counts = true := hcounts b (by simp)
    have hrest : ∀ c ∈ rest, c.kind.counts = true := fun c hc => hcounts c (by simp [hc])
    rw [steps, ContinuesAll]
    by_cases hc : Continues settings before b
    · simp only [(step_eq_ok_iff hb).mpr ⟨hc, rfl⟩, ih hrest]
      simp [hc]
    · rw [iff_false_right fun h => hc h.1.1]
      split
      · rename_i next hnext
        exact absurd ((step_eq_ok_iff hb).mp hnext).1 hc
      · simp

/-- Every list that can stand where it does completes one question, and no other block does. -/
theorem length_questionsFrom (h : ContinuesAll settings before rest) :
    (questionsFrom settings before rest).length = rest.countP fun b => b.kind.isList := by
  induction rest generalizing before with
  | nil => rfl
  | cons b rest ih =>
    obtain ⟨hb, hrest⟩ := h
    rw [questionsFrom, List.length_append, ih hrest, List.countP_cons, Nat.add_comm]
    congr 1
    cases hk : b.kind with
    | list list =>
      rw [Continues, hk] at hb
      obtain ⟨q, hq⟩ := hb.question?_isSome (tagsAt before)
      simp [questionAt, hk, hq, BlockKind.isList]
    | _ => simp [questionAt, hk, BlockKind.isList]

theorem exists_completed_of_mem_questionsFrom {q : Question}
    (hall : ContinuesAll settings before rest) (h : q ∈ questionsFrom settings before rest) :
    ∃ front list, front <+: before ++ rest ∧ Lead.CompletedBy settings list (openLead front) ∧
      Lead.question? settings (tagsAt front) (openLead front) list = some q := by
  induction rest generalizing before with
  | nil => cases h
  | cons b rest ih =>
    obtain ⟨hb, hrest⟩ := hall
    rcases List.mem_append.mp h with h | h
    · have hat : questionAt settings before b = some q := by simpa using h
      cases hk : b.kind with
      | list list =>
        rw [questionAt, hk] at hat
        rw [Continues, hk] at hb
        exact ⟨before, list, List.prefix_append before _, hb, hat⟩
      | _ => simp [questionAt, hk] at hat
    · simpa using ih hrest h

/-- Thematic breaks change nothing, wherever they stand. -/
theorem steps_filter_rule (settings : Settings) (a : Assembly) (bs : List Block) :
    a.steps settings (bs.filter fun b => b.kind != .rule) = a.steps settings bs := by
  induction bs generalizing a with
  | nil => rfl
  | cons b bs ih =>
    by_cases hb : b.kind = .rule
    · have hstep : a.step settings b = .ok a := by simp [step, hb]
      simp [hb, steps, hstep, ih]
    · simp [hb, steps, ih]

end Assembly

theorem Document.counts_of_mem_content {d : Document} {b : Block} (h : b ∈ d.content) :
    b.kind.counts = true := by
  obtain ⟨hvisible, hrule⟩ := List.mem_filter.mp h
  obtain ⟨-, hcomment⟩ := List.mem_filter.mp hvisible
  rw [BlockKind.counts_iff]
  simp_all [isVisible]

theorem Document.countP_content (d : Document) :
    d.content.countP (fun b => b.kind.isList) =
      d.visibleBlocks.countP fun b => b.kind.isList := by
  rw [content, List.countP_filter]
  refine List.countP_congr fun b _ => ?_
  cases hk : b.kind <;> simp [BlockKind.isList]

/-- A document yields questions exactly if every block of it can follow those before and no
question is open at its end. -/
theorem assemble_eq_ok_iff {settings : Settings} {d : Document} {qs : List Question} :
    assemble settings d = .ok qs ↔
      Assembly.ContinuesAll settings [] d.content ∧ openLead d.content = [] ∧
        Assembly.questionsFrom settings [] d.content = qs := by
  have hrun := @Assembly.steps_eq_ok_iff settings [] d.content
    fun b hb => Document.counts_of_mem_content hb
  have hstart : Assembly.stateAfter settings [] = {} := rfl
  simp only [hstart, List.nil_append] at hrun
  have hcontent : ({} : Assembly).steps settings d.visibleBlocks =
      ({} : Assembly).steps settings d.content := (Assembly.steps_filter_rule _ _ _).symm
  rw [assemble, hcontent]
  by_cases hall : Assembly.ContinuesAll settings [] d.content
  · rw [hrun.mpr ⟨hall, rfl⟩, and_iff_right hall]
    by_cases ho : openLead d.content = [] <;>
      simp [Assembly.finish, Assembly.stateAfter, ho]
  · rw [iff_false_right fun h => hall h.1]
    split
    · rename_i a ha
      exact absurd (hrun.mp ha).1 hall
    · simp

end Quizdown
