import Quizdown.Proofs.Assembly.State

/-! The documents that yield questions, as a grammar over their blocks: tag headings, and groups of
an optional name heading, description blocks and one list. The assembly accepts exactly this
language, and yields one question for each list. -/
set_option autoImplicit false

namespace Quizdown

/-- The blocks in front of a list: a heading of level 2 to 6, if there is one, and then blocks of
a description. -/
inductive IsLead : List Block → Prop where
  | bare {body : List Block} : (∀ b ∈ body, b.kind.isDescription = true) → IsLead body
  | named {heading : Block} {body : List Block} : heading.kind.isNameHeading = true →
      (∀ b ∈ body, b.kind.isDescription = true) → IsLead (heading :: body)

def Lead.InDomain (lead : List Block) : Prop :=
  ∀ d ∈ directives lead, ∀ key, d.known? = some key → key.Accepts d.value

/-- The blocks of a quiz: tag headings and complete groups, in any order. -/
inductive IsQuiz (settings : Settings) : List Block → Prop where
  | nil : IsQuiz settings []
  | tags {b : Block} {rest : List Block} :
      b.kind.isTagHeading = true → IsQuiz settings rest → IsQuiz settings (b :: rest)
  | group {lead rest : List Block} {b : Block} {list : AnswerList} :
      IsLead lead → Lead.InDomain lead → b.kind = .list list →
      Lead.CompletedBy settings list lead → IsQuiz settings rest →
      IsQuiz settings (lead ++ b :: rest)

theorem Lead.inDomain_iff {lead : List Block} :
    InDomain lead ↔ ∀ d ∈ directives lead, d.accepted = true := by
  simp only [InDomain, Directive.accepted_iff]

theorem IsLead.opens {lead : List Block} (h : IsLead lead) : ∀ b ∈ lead, b.kind.opens = true := by
  cases h with
  | bare hbody => exact fun b hb => BlockKind.isDescription_opens (hbody b hb)
  | named hheading hbody =>
    intro b hb
    cases hb with
    | head => exact BlockKind.isNameHeading_opens hheading
    | tail _ hb => exact BlockKind.isDescription_opens (hbody b hb)

theorem IsLead.concat {lead : List Block} {b : Block} (h : IsLead lead)
    (hb : b.kind.isDescription = true) : IsLead (lead ++ [b]) := by
  have hmore : ∀ body : List Block, (∀ c ∈ body, c.kind.isDescription = true) →
      ∀ c ∈ body ++ [b], c.kind.isDescription = true := by
    intro body hbody c hc
    rcases List.mem_append.mp hc with hc | hc
    · exact hbody c hc
    · rw [List.mem_singleton.mp hc]
      exact hb
  cases h with
  | bare hbody => exact .bare (hmore _ hbody)
  | named hheading hbody => exact .named hheading (hmore _ hbody)

theorem openLead_append {more : List Block} (before : List Block)
    (h : ∀ b ∈ more, b.kind.opens = true) :
    openLead (before ++ more) = openLead before ++ more := by
  have hmore : ∀ b ∈ more.reverse, (!b.kind.closes) = true := fun b hb => by
    rw [BlockKind.opens_not_closes (h b (List.mem_reverse.mp hb))]
    rfl
  rw [openLead, List.reverse_append, List.takeWhile_append_of_pos hmore, List.reverse_append,
    List.reverse_reverse, openLead]

namespace Assembly

variable {settings : Settings}

theorem continues_of_isDescription {before : List Block} {b : Block}
    (hb : b.kind.isDescription = true) :
    Continues settings before b ↔ ∀ d ∈ b.kind.directives, d.accepted = true := by
  cases hk : b.kind <;> simp_all [Continues, BlockKind.isDescription]

theorem continuesAll_of_isDescription {body : List Block} (before : List Block)
    (hbody : ∀ b ∈ body, b.kind.isDescription = true)
    (haccepted : ∀ d ∈ Lead.directives body, d.accepted = true) :
    ContinuesAll settings before body := by
  induction body generalizing before with
  | nil => trivial
  | cons b body ih =>
    simp only [Lead.directives, List.flatMap_cons, List.mem_append] at haccepted
    refine ⟨?_, ih _ (fun c hc => hbody c (by simp [hc])) fun d hd => haccepted d (.inr hd)⟩
    rw [continues_of_isDescription (hbody b (by simp))]
    exact fun d hd => haccepted d (.inl hd)

theorem continuesAll_of_isLead {lead before : List Block} (hlead : IsLead lead)
    (hdomain : Lead.InDomain lead) (hopen : openLead before = []) :
    ContinuesAll settings before lead := by
  rw [Lead.inDomain_iff] at hdomain
  cases hlead with
  | bare hbody => exact continuesAll_of_isDescription before hbody hdomain
  | @named heading body hheading hbody =>
    refine ⟨?_, continuesAll_of_isDescription _ hbody fun d hd => hdomain d ?_⟩
    · cases hk : heading.kind <;> simp_all [Continues, BlockKind.isNameHeading]
    · exact List.mem_append_right _ hd

theorem continuesAll_of_isQuiz {rest before : List Block} (h : IsQuiz settings rest)
    (hopen : openLead before = []) :
    ContinuesAll settings before rest ∧ openLead (before ++ rest) = [] := by
  induction h generalizing before with
  | nil => simpa [ContinuesAll] using hopen
  | @tags b rest hb _ ih =>
    have hafter : openLead (before ++ [b]) = [] := by
      simp [openLead_concat, BlockKind.isTagHeading_closes hb]
    have hcontinues : Continues settings before b := by
      cases hk : b.kind <;>
        simp_all [Continues, BlockKind.isTagHeading, BlockKind.tagText?]
    obtain ⟨hall, hend⟩ := ih hafter
    exact ⟨⟨hcontinues, hall⟩, by simpa using hend⟩
  | @group lead rest b list hlead hdomain hb hcompleted _ ih =>
    have hleadOpen : openLead (before ++ lead) = lead := by
      rw [openLead_append before hlead.opens, hopen, List.nil_append]
    have hcloses : b.kind.closes = true := BlockKind.isList_closes (by rw [hb]; rfl)
    have hafter : openLead (before ++ lead ++ [b]) = [] := by
      rw [openLead_concat, if_pos hcloses]
    have hcontinues : Continues settings (before ++ lead) b := by
      rw [Continues, hb, hleadOpen]
      exact hcompleted
    obtain ⟨hall, hend⟩ := ih hafter
    refine ⟨?_, by simpa using hend⟩
    rw [continuesAll_append]
    exact ⟨continuesAll_of_isLead hlead hdomain hopen, hcontinues, hall⟩

/-- Blocks that can follow the open lead one by one, and leave no question open, make a quiz with
it. The induction carries the lead of the question that is open. -/
theorem isQuiz_of_continuesAll {rest before : List Block}
    (hcounts : ∀ b ∈ rest, b.kind.counts = true) (hall : ContinuesAll settings before rest)
    (hend : openLead (before ++ rest) = []) (hlead : IsLead (openLead before))
    (hdomain : Lead.InDomain (openLead before)) :
    IsQuiz settings (openLead before ++ rest) := by
  have hempty : IsLead [] := .bare fun b hb => by cases hb
  have hnone : Lead.InDomain [] := fun d hd => by cases hd
  induction rest generalizing before with
  | nil =>
    rw [List.append_nil] at hend
    rw [hend]
    exact .nil
  | cons b rest ih =>
    obtain ⟨hb, hrest⟩ := hall
    have hend' : openLead (before ++ [b] ++ rest) = [] := by simpa using hend
    have hnext := ih (fun c hc => hcounts c (by simp [hc])) hrest hend'
    rw [openLead_concat] at hnext
    cases hk : b.kind with
    | heading level text =>
      rw [Continues, hk] at hb
      rw [hb]
      by_cases hl : level = 1
      · have htag : b.kind.isTagHeading = true := by
          simp [hk, BlockKind.isTagHeading, BlockKind.tagText?, hl]
        rw [if_pos (BlockKind.isTagHeading_closes htag)] at hnext
        exact .tags htag (hnext hempty hnone)
      · have hname : b.kind.isNameHeading = true := by simp [hk, BlockKind.isNameHeading, hl]
        rw [BlockKind.opens_not_closes (BlockKind.isNameHeading_opens hname), hb] at hnext
        refine hnext (.named hname fun c hc => by cases hc) fun d hd => ?_
        simp [Lead.directives, hk, BlockKind.directives] at hd
    | list list =>
      rw [Continues, hk] at hb
      have hcloses : b.kind.closes = true := BlockKind.isList_closes (by rw [hk]; rfl)
      rw [if_pos hcloses] at hnext
      exact .group hlead hdomain hk hb (hnext hempty hnone)
    | paragraph | code | rich =>
      have hd : b.kind.isDescription = true := by rw [hk]; rfl
      have haccepted := (continues_of_isDescription hd).mp hb
      rw [BlockKind.opens_not_closes (BlockKind.isDescription_opens hd)] at hnext
      have hmore : Lead.InDomain (openLead before ++ [b]) := by
        rw [Lead.inDomain_iff] at hdomain ⊢
        intro d hd
        rcases List.mem_append.mp (Lead.directives_append _ _ ▸ hd) with hd | hd
        · exact hdomain d hd
        · exact haccepted d (by simpa [Lead.directives] using hd)
      simpa using hnext (hlead.concat hd) hmore
    | rule | comment =>
      have hno := hcounts b (by simp)
      rw [hk] at hno
      cases hno

theorem openLead_eq_nil {before : List Block}
    (h : ∀ b ∈ before.getLast?, b.kind.closes = true) : openLead before = [] := by
  rcases List.eq_nil_or_concat before with rfl | ⟨front, b, rfl⟩
  · rfl
  · rw [List.concat_eq_append] at h ⊢
    rw [openLead_concat, if_pos (h b (by simp))]

theorem openLead_concat_ne_nil {before : List Block} {b : Block} (h : b.kind.opens = true) :
    openLead (before ++ [b]) ≠ [] := by
  simp [openLead_concat, BlockKind.opens_not_closes h]

theorem continues_of_eq_append {bs before after : List Block} {b : Block}
    (h : ContinuesAll settings [] bs) (hbs : bs = before ++ b :: after) :
    Continues settings before b := by
  rw [hbs, continuesAll_append] at h
  simpa using h.2.1

end Assembly

theorem isQuiz_content_iff {settings : Settings} {d : Document} :
    IsQuiz settings d.content ↔
      Assembly.ContinuesAll settings [] d.content ∧ openLead d.content = [] := by
  constructor
  · exact fun h => @Assembly.continuesAll_of_isQuiz settings _ [] h rfl
  · rintro ⟨hall, hend⟩
    exact @Assembly.isQuiz_of_continuesAll settings _ []
      (fun b hb => Document.counts_of_mem_content hb) hall hend
      (.bare fun b hb => by cases hb) fun d hd => by cases hd

theorem assemble_eq_error {settings : Settings} {d : Document}
    (h : ¬ (Assembly.ContinuesAll settings [] d.content ∧ openLead d.content = [])) :
    ∃ e, assemble settings d = .error e := by
  cases hresult : assemble settings d with
  | error e => exact ⟨e, rfl⟩
  | ok qs =>
    obtain ⟨hall, hend, -⟩ := assemble_eq_ok_iff.mp hresult
    exact absurd ⟨hall, hend⟩ h

/-- A document yields questions exactly if its visible blocks, thematic breaks apart, are those of a
quiz, and then one for each list. So a heading inside a question is refused, a list with nothing
of its own before it, and a question without a list at the end. -/
theorem assemble_accepts_iff (settings : Settings) (d : Document) :
    ((∃ qs, assemble settings d = .ok qs) ↔ IsQuiz settings d.content) ∧
    (∀ qs, assemble settings d = .ok qs →
      qs.length = d.visibleBlocks.countP fun b => b.kind.isList) ∧
    (∀ before opener heading after, d.content = before ++ opener :: heading :: after →
      opener.kind.opens = true → (heading.kind.isTagHeading || heading.kind.isNameHeading) = true →
      ∃ e, assemble settings d = .error e) ∧
    (∀ before list after, d.content = before ++ list :: after → list.kind.isList = true →
      (∀ b ∈ before.getLast?, (b.kind.isTagHeading || b.kind.isList) = true) →
      ∃ e, assemble settings d = .error e) ∧
    (∀ before opener, d.content = before ++ [opener] → opener.kind.opens = true →
      ∃ e, assemble settings d = .error e) := by
  refine ⟨?_, ?_, ?_, ?_, ?_⟩
  · rw [isQuiz_content_iff]
    simp [assemble_eq_ok_iff]
  · intro qs hqs
    obtain ⟨hall, -, rfl⟩ := assemble_eq_ok_iff.mp hqs
    rw [Assembly.length_questionsFrom hall, Document.countP_content]
  · intro before opener heading after hcontent hopens hheading
    refine assemble_eq_error fun ⟨hall, _⟩ => ?_
    have hc : Assembly.Continues settings (before ++ [opener]) heading :=
      Assembly.continues_of_eq_append hall (by simpa using hcontent)
    have hno := @Assembly.openLead_concat_ne_nil before opener hopens
    cases hk : heading.kind with
    | heading level text =>
      rw [Assembly.Continues, hk] at hc
      exact hno hc
    | _ =>
      simp [hk, BlockKind.isTagHeading, BlockKind.isNameHeading, BlockKind.tagText?] at hheading
  · intro before b after hcontent hlist hclosed
    refine assemble_eq_error fun ⟨hall, _⟩ => ?_
    obtain ⟨list, hk⟩ := BlockKind.isList_iff.mp hlist
    have hc := Assembly.continues_of_eq_append hall hcontent
    rw [Assembly.Continues, hk] at hc
    exact hc.ne_nil (Assembly.openLead_eq_nil hclosed)
  · intro before opener hcontent hopens
    refine assemble_eq_error fun ⟨_, hend⟩ => ?_
    rw [hcontent] at hend
    exact Assembly.openLead_concat_ne_nil hopens hend

def namedQuestion (more : List Block) : Document where
  blocks :=
    ⟨.heading 2 "N".toList, ⟨0, 4⟩, 1, 1⟩ ::
      ⟨.paragraph "<p>Q @multi=no</p>".toList "Q @multi=no".toList, ⟨6, 17⟩, 3, 2⟩ ::
      (more ++ [⟨.list ⟨false, [⟨"x".toList, "x".toList, none⟩]⟩, ⟨30, 33⟩, 9, 4⟩])
  commentSpans := []

theorem assemble_accepts_namedQuestion :
    (∃ qs, assemble {} (namedQuestion [⟨.rule, ⟨19, 22⟩, 5, 3⟩]) = .ok qs ∧ qs.length = 1) ∧
      ∃ e, assemble {} (namedQuestion [⟨.heading 3 "M".toList, ⟨19, 24⟩, 5, 3⟩]) = .error e := by
  obtain ⟨hquiz, hlength, -⟩ := assemble_accepts_iff {} (namedQuestion [⟨.rule, ⟨19, 22⟩, 5, 3⟩])
  obtain ⟨-, -, hheading, -⟩ :=
    assemble_accepts_iff {} (namedQuestion [⟨.heading 3 "M".toList, ⟨19, 24⟩, 5, 3⟩])
  refine ⟨?_, hheading ((namedQuestion []).blocks.take 1) _ _ _ rfl rfl rfl⟩
  let lead := (namedQuestion []).blocks.take 2
  have hlead : IsLead lead := .named rfl (by decide)
  have hdomain : Lead.InDomain lead := Lead.inDomain_iff.mpr (by decide +kernel)
  have hcompleted : Lead.CompletedBy {} ⟨false, [⟨"x".toList, "x".toList, none⟩]⟩ lead :=
    ⟨by decide +kernel, ⟨_, rfl⟩, .inl (by decide)⟩
  obtain ⟨qs, hqs⟩ := hquiz.mpr (.group hlead hdomain rfl hcompleted .nil)
  exact ⟨qs, hqs, hlength qs hqs⟩

end Quizdown
