import Quizdown.Document.Reader
import Quizdown.Proofs.Assembly.State
import Mathlib.Data.List.Nodup

/-! Where and why a document is refused. A run stops at the first block that cannot follow the
blocks before it, and the error tells what is wrong with that block; what comes later does not
matter. A document whose blocks can all follow is refused if a question is open at its end. -/
set_option autoImplicit false

namespace Quizdown

namespace Directive

def refusal (d : Directive) : DirectiveError where
  token := d.token
  fault := if d.known? = some .numbering then .unknownNumbering d.value else .notBoolean

theorem applyOne_eq_error_iff {d : Directive} {config : QuestionConfig} {e : DirectiveError} :
    applyOne config d = .error e ↔ d.accepted = false ∧ refusal d = e := by
  cases hk : d.known? with
  | none => simp [applyOne, accepted, hk]
  | some key =>
    cases key with
    | numbering =>
      cases hv : Numbering.ofName? d.value <;> simp [applyOne, accepted, refusal, hk, hv]
    | shuffle | forceMulti =>
      cases hv : boolean? d.value <;> simp [applyOne, accepted, refusal, hk, hv]

theorem applyAll_eq_error_iff {ds : List Directive} {config : QuestionConfig}
    {e : DirectiveError} :
    applyAll ds config = .error e ↔ ∃ before d after, ds = before ++ d :: after ∧
      (∀ c ∈ before, c.accepted = true) ∧ d.accepted = false ∧ refusal d = e := by
  induction ds generalizing config with
  | nil => simp [applyAll]
  | cons d ds ih =>
    rw [applyAll]
    cases hone : applyOne config d with
    | error fault =>
      obtain ⟨hd, rfl⟩ := applyOne_eq_error_iff.mp hone
      constructor
      · rintro ⟨rfl⟩
        exact ⟨[], d, ds, rfl, by simp, hd, rfl⟩
      · rintro ⟨before, c, after, hds, hbefore, -, rfl⟩
        cases before with
        | nil => rw [(List.cons.inj hds).1]
        | cons b before =>
          obtain ⟨rfl, -⟩ := List.cons.inj hds
          have haccepted := hbefore d (by simp)
          rw [hd] at haccepted
          cases haccepted
    | ok next =>
      have hd : d.accepted = true := (applyOne_eq_ok_iff.mp hone).1
      dsimp only
      rw [ih]
      constructor
      · rintro ⟨before, c, after, rfl, hbefore, hc⟩
        exact ⟨d :: before, c, after, rfl, List.forall_mem_cons.mpr ⟨hd, hbefore⟩, hc⟩
      · rintro ⟨before, c, after, hds, hbefore, hc⟩
        cases before with
        | nil =>
          obtain ⟨rfl, -⟩ := List.cons.inj hds
          rw [hd] at hc
          cases hc.1
        | cons b before =>
          obtain ⟨rfl, rfl⟩ := List.cons.inj hds
          exact ⟨before, c, after, rfl, (List.forall_mem_cons.mp hbefore).2, hc⟩

end Directive

namespace Lead

def label (lead : List Block) : Text :=
  if (title lead).isEmpty then "question at line ".toList ++ Text.ofNat (place lead).line
  else title lead

theorem label_draft (settings : Settings) (tags : Texts) (lead : List Block) :
    (draft settings tags lead).label = label lead := by
  by_cases h : title lead = [] <;> simp [Draft.label, draft, label, h]

/-- The lead and the list at this place make no question, for the first reason that there is. -/
inductive FailsWith (settings : Settings) (list : AnswerList) (at_ : Location)
    (lead : List Block) : ConvertError → Prop
  | noDescription (blank : Text.isAllBlank (description lead) = true) :
      FailsWith settings list at_ lead (.structural at_ (.noDescription (label lead)))
  | classification {fault : ClassifyError}
      (described : Text.isAllBlank (description lead) = false)
      (refused : list.classify (config settings lead).forceMulti settings.matchingSeparator =
        .error fault) :
      FailsWith settings list at_ lead (.classification at_ (label lead) fault)
  | noName {c : Classification} (described : Text.isAllBlank (description lead) = false)
      (classified : list.classify (config settings lead).forceMulti settings.matchingSeparator =
        .ok c)
      (unnamed : name? lead = none) :
      FailsWith settings list at_ lead (.structural (place lead) .noName)

end Lead

namespace Assembly

/-- The block cannot follow the blocks before it, and this is what is said of it. -/
def Refuses (settings : Settings) (before : List Block) (b : Block) (e : ConvertError) : Prop :=
  match b.kind with
  | .heading level _ =>
    openLead before ≠ [] ∧
      .structural (placeOf b)
        (if level = 1 then .tagHeadingInside (Lead.label (openLead before))
        else .nameHeadingInside (Lead.label (openLead before))) = e
  | .paragraph html _ =>
    ∃ first d later, (Directive.extract html).directives = first ++ d :: later ∧
      (∀ c ∈ first, c.accepted = true) ∧ d.accepted = false ∧
      .directive (placeOf b) (Lead.label (openLead before ++ [b])) d.refusal = e
  | .list list =>
    if openLead before = [] then
      .structural (placeOf b)
        (if before.getLast?.any fun c => c.kind.isList then .secondList else .listAlone) = e
    else Lead.FailsWith settings list (placeOf b) (openLead before) e
  | .code _ _ | .rich _ _ | .rule | .comment => False

variable {settings : Settings} {before rest : List Block} {b : Block} {e : ConvertError}

theorem complete_eq_error_iff {tags : Texts} {lead : List Block} {place : Location}
    {list : AnswerList} :
    complete settings (Lead.draft settings tags lead) place list = .error e ↔
      Lead.FailsWith settings list place lead e := by
  have hname : ((Lead.draft settings tags lead).name.orElse fun _ =>
      deriveName? (Lead.draft settings tags lead).plain) = Lead.name? lead := by
    by_cases h : Lead.title lead = [] <;> simp [Lead.draft, Lead.name?, h]
  have hconfig : (Lead.draft settings tags lead).config = Lead.config settings lead := rfl
  have hdescription : (Lead.draft settings tags lead).description = Lead.description lead := rfl
  have hlocation : (Lead.draft settings tags lead).location = Lead.place lead := rfl
  rw [complete, hname, hconfig, hdescription, hlocation, Lead.label_draft]
  constructor
  · intro h
    split at h
    · rename_i hblank
      cases h
      exact .noDescription hblank
    · rename_i hdescribed
      have hdescribed' : Text.isAllBlank (Lead.description lead) = false := by
        simpa using hdescribed
      split at h
      · rename_i fault hfault
        cases h
        exact .classification hdescribed' hfault
      · rename_i c hc
        split at h
        · rename_i hunnamed
          cases h
          exact .noName hdescribed' hc hunnamed
        · cases h
  · intro h
    cases h with
    | noDescription blank => rw [if_pos blank]
    | classification described refused => simp [described, refused]
    | noName described classified unnamed => simp [described, classified, unnamed]

theorem step_paragraph_eq_error_iff {html text : Text} (hk : b.kind = .paragraph html text) :
    (stateAfter settings before).step settings b = .error e ↔ Refuses settings before b e := by
  have hlabel : (Draft.label { Lead.draft settings (tagsAt before) (openLead before) with
      location := Lead.place (openLead before ++ [b]) }) = Lead.label (openLead before ++ [b]) := by
    have htitle : Lead.title (openLead before ++ [b]) = Lead.title (openLead before) := by
      cases hlead : openLead before with
      | nil =>
        obtain ⟨kind, span, line, index⟩ := b
        subst hk
        rfl
      | cons first more => exact Lead.title_append (by simp)
    by_cases h : Lead.title (openLead before) = [] <;>
      simp [Draft.label, Lead.draft, Lead.label, htitle, h]
  simp only [step, Refuses, hk, openDraft_stateAfter, hlabel, addParagraph_eq]
  constructor
  · intro h
    split at h
    · rename_i fault hfault
      split at hfault
      · rename_i hrefused
        obtain ⟨first, d, later, hfound, haccepted, hd, rfl⟩ :=
          Directive.applyAll_eq_error_iff.mp hrefused
        cases hfault
        cases h
        exact ⟨first, d, later, hfound, haccepted, hd, rfl⟩
      · split at hfault <;> cases hfault
    · cases h
  · rintro ⟨first, d, later, hfound, haccepted, hd, rfl⟩
    rw [Directive.applyAll_eq_error_iff.mpr ⟨first, d, later, hfound, haccepted, hd, rfl⟩]

theorem step_eq_error_iff :
    (stateAfter settings before).step settings b = .error e ↔ Refuses settings before b e := by
  cases hk : b.kind with
  | heading level text =>
    by_cases ho : openLead before = [] <;> by_cases hl : level = 1 <;>
      simp [step, Refuses, hk, hl, ho, stateAfter_draft, Lead.label_draft]
  | paragraph html text => exact step_paragraph_eq_error_iff hk
  | list list =>
    by_cases ho : openLead before = []
    · simp [step, Refuses, hk, ho, stateAfter]
    · have hcomplete := @complete_eq_error_iff settings e (tagsAt before) (openLead before)
        (placeOf b) list
      simp only [step, Refuses, hk, ho, stateAfter_draft, List.isEmpty_iff, if_false, ← hcomplete]
      split <;> simp_all
  | code html text | rich html text | rule | comment => simp [step, Refuses, hk]

/-- The inversion of a run that fails: it does at the first block that cannot follow. -/
theorem steps_eq_error_iff (hcounts : ∀ b ∈ rest, b.kind.counts = true) :
    (stateAfter settings before).steps settings rest = .error e ↔
      ∃ front b after, rest = front ++ b :: after ∧ ContinuesAll settings before front ∧
        Refuses settings (before ++ front) b e := by
  induction rest generalizing before with
  | nil => simp [steps]
  | cons c rest ih =>
    obtain ⟨hc, hrest⟩ := List.forall_mem_cons.mp hcounts
    rw [steps]
    cases hstep : (stateAfter settings before).step settings c with
    | error fault =>
      have hrefuses := step_eq_error_iff.mp hstep
      constructor
      · rintro ⟨rfl⟩
        exact ⟨[], c, rest, rfl, trivial, by simpa using hrefuses⟩
      · rintro ⟨front, b, after, hrest', hfront, hb⟩
        cases front with
        | nil =>
          obtain ⟨rfl, -⟩ := List.cons.inj hrest'
          rw [List.append_nil, ← step_eq_error_iff, hstep] at hb
          exact hb
        | cons d front =>
          obtain ⟨rfl, -⟩ := List.cons.inj hrest'
          have hok := (step_eq_ok_iff hc).mpr ⟨hfront.1, rfl⟩
          rw [hstep] at hok
          cases hok
    | ok next =>
      obtain ⟨hcontinues, rfl⟩ := (step_eq_ok_iff hc).mp hstep
      dsimp only
      rw [ih hrest]
      constructor
      · rintro ⟨front, b, after, rfl, hfront, hb⟩
        exact ⟨c :: front, b, after, rfl, ⟨hcontinues, hfront⟩, by simpa using hb⟩
      · rintro ⟨front, b, after, hrest', hfront, hb⟩
        cases front with
        | nil =>
          obtain ⟨rfl, -⟩ := List.cons.inj hrest'
          rw [List.append_nil, ← step_eq_error_iff, hstep] at hb
          cases hb
        | cons d front =>
          obtain ⟨rfl, rfl⟩ := List.cons.inj hrest'
          exact ⟨front, b, after, rfl, hfront.2, by simpa using hb⟩

end Assembly

/-- The blocks without thematic breaks. -/
def counted (bs : List Block) : List Block := bs.filter fun b => b.kind != .rule

namespace Assembly

variable {settings : Settings} {bs before after : List Block} {b : Block} {e : ConvertError}

theorem Refuses.counts (h : Refuses settings before b e) : b.kind.counts = true := by
  rw [BlockKind.counts_iff]
  constructor <;> intro hk <;> simp [Refuses, hk] at h

theorem exists_refused_iff :
    (∃ before b after, counted bs = before ++ b :: after ∧ ContinuesAll settings [] before ∧
      Refuses settings before b e) ↔
    ∃ before b after, bs = before ++ b :: after ∧ ContinuesAll settings [] (counted before) ∧
      Refuses settings (counted before) b e := by
  constructor
  · rintro ⟨before, b, after, hbs, hbefore, hb⟩
    obtain ⟨front, tail, rfl, rfl, htail⟩ := List.filter_eq_append_iff.mp hbs
    obtain ⟨rules, rest, rfl, hrules, -, rfl⟩ := List.filter_eq_cons_iff.mp htail
    have hnone : counted (front ++ rules) = counted front := by
      rw [counted, List.filter_append, List.filter_eq_nil_iff.mpr hrules, List.append_nil, counted]
    exact ⟨front ++ rules, b, rest, by simp, by rwa [hnone], by rwa [hnone]⟩
  · rintro ⟨before, b, after, rfl, hbefore, hb⟩
    have hkept : (b.kind != .rule) = true := by
      simpa using (BlockKind.counts_iff.mp hb.counts).1
    refine ⟨counted before, b, counted after, ?_, hbefore, hb⟩
    simp [counted, hkept]

theorem steps_counted (h : ∀ b ∈ bs, b.kind ≠ .comment) {a : Assembly} :
    ({} : Assembly).steps settings bs = .ok a ↔
      ContinuesAll settings [] (counted bs) ∧ stateAfter settings (counted bs) = a := by
  have hcounts : ∀ b ∈ counted bs, b.kind.counts = true := fun b hb => by
    obtain ⟨hmem, hrule⟩ := List.mem_filter.mp hb
    exact BlockKind.counts_iff.mpr ⟨by simpa using hrule, h b hmem⟩
  have hrun := @steps_eq_ok_iff settings [] (counted bs) hcounts a
  rwa [counted, steps_filter_rule, ← counted] at hrun

end Assembly

theorem Document.ne_comment_of_visible {d : Document} {b : Block} (h : b ∈ d.visibleBlocks) :
    b.kind ≠ .comment := by
  have hvisible := (List.mem_filter.mp h).2
  simp only [isVisible, Bool.and_eq_true, bne_iff_ne] at hvisible
  exact hvisible.1

/-- A document is refused exactly if there is a first block that cannot follow those before it, or
if all can and a question is open at the end. -/
theorem assemble_eq_error_iff {settings : Settings} {d : Document} {e : ConvertError} :
    assemble settings d = .error e ↔
      (∃ before b after, d.visibleBlocks = before ++ b :: after ∧
        Assembly.ContinuesAll settings [] (counted before) ∧
        Assembly.Refuses settings (counted before) b e) ∨
      (Assembly.ContinuesAll settings [] d.content ∧ openLead d.content ≠ [] ∧
        .structural (Lead.place (openLead d.content))
          (.noAnswers (Lead.label (openLead d.content))) = e) := by
  have hcontent : d.content = counted d.visibleBlocks := rfl
  have hsteps : ({} : Assembly).steps settings d.visibleBlocks =
      (Assembly.stateAfter settings []).steps settings d.content :=
    (Assembly.steps_filter_rule _ _ _).symm
  have hcounts : ∀ b ∈ d.content, b.kind.counts = true := fun b hb =>
    Document.counts_of_mem_content hb
  rw [← Assembly.exists_refused_iff, ← hcontent, assemble, hsteps]
  cases hrun : (Assembly.stateAfter settings []).steps settings d.content with
  | error fault =>
    have hno : ¬ Assembly.ContinuesAll settings [] d.content := fun hall => by
      rw [(Assembly.steps_eq_ok_iff hcounts).mpr ⟨hall, rfl⟩] at hrun
      cases hrun
    have hfails := @Assembly.steps_eq_error_iff settings [] d.content e hcounts
    simp only [List.nil_append, hrun] at hfails
    rw [or_iff_left fun h => hno h.1]
    simpa using hfails
  | ok a =>
    obtain ⟨hall, rfl⟩ := (Assembly.steps_eq_ok_iff hcounts).mp hrun
    have hfails := @Assembly.steps_eq_error_iff settings [] d.content e hcounts
    simp only [List.nil_append, hrun, reduceCtorEq, false_iff] at hfails
    have hplace (tags : Texts) (lead : List Block) :
        (Lead.draft settings tags lead).location = Lead.place lead := rfl
    rw [or_iff_right hfails, and_iff_right hall]
    by_cases ho : openLead d.content = [] <;>
      simp [Assembly.finish, Assembly.stateAfter, ho, Lead.label_draft, hplace]

/-- A document is refused because of a block: those in front of it are accepted, and what comes
later has no influence. -/
structure FailsAt (settings : Settings) (e : ConvertError) (before : List Block) (b : Block) :
    Prop where
  accepted : ∃ a, ({} : Assembly).steps settings before = .ok a
  decided : ∀ d : Document, before ++ [b] <+: d.visibleBlocks → assemble settings d = .error e
  place : (∀ place, e ≠ .structural place .noName) → e.location = Assembly.placeOf b
  unnamed : ∀ place, e = .structural place .noName →
    ∃ first, (openLead (counted before)).head? = some first ∧ place = Assembly.placeOf first
  directive : ∀ place label fault, e = .directive place label fault →
    ∃ html text first d later, b.kind = .paragraph html text ∧
      (Directive.extract html).directives = first ++ d :: later ∧
      (∀ c ∈ first, ∀ key, c.known? = some key → key.Accepts c.value) ∧
      (∃ key, d.known? = some key ∧ ¬ key.Accepts d.value) ∧ fault.token = d.token
  classification : ∀ place label fault, e = .classification place label fault →
    ∃ list, b.kind = .list list ∧
      list.classify (Lead.config settings (openLead (counted before))).forceMulti
        settings.matchingSeparator = .error fault

theorem Lead.exists_place {lead : List Block} (h : lead ≠ []) :
    ∃ first, lead.head? = some first ∧ place lead = Assembly.placeOf first := by
  obtain ⟨first, more, rfl⟩ := List.exists_cons_of_ne_nil h
  exact ⟨first, rfl, rfl⟩

theorem Directive.not_accepted_iff {d : Directive} :
    d.accepted = false ↔ ∃ key, d.known? = some key ∧ ¬ key.Accepts d.value := by
  rw [← Bool.not_eq_true, accepted_iff]
  push Not
  rfl

namespace Assembly

variable {settings : Settings} {bs before after : List Block} {b : Block} {e : ConvertError}

/-- What can be said of a block that is refused: something about its place among the others, its
directive, its list, or the name of its question. -/
theorem Refuses.error_cases (h : Refuses settings before b e) :
    (∃ fault, fault ≠ .noName ∧ e = .structural (placeOf b) fault) ∨
      (∃ html text first d later, b.kind = .paragraph html text ∧
        (Directive.extract html).directives = first ++ d :: later ∧
        (∀ c ∈ first, c.accepted = true) ∧ d.accepted = false ∧
        e = .directive (placeOf b) (Lead.label (openLead before ++ [b])) d.refusal) ∨
      (∃ list fault, b.kind = .list list ∧
        list.classify (Lead.config settings (openLead before)).forceMulti
          settings.matchingSeparator = .error fault ∧
        e = .classification (placeOf b) (Lead.label (openLead before)) fault) ∨
      (openLead before ≠ [] ∧ e = .structural (Lead.place (openLead before)) .noName) := by
  cases hk : b.kind with
  | heading level text =>
    simp only [Refuses, hk] at h
    exact .inl ⟨_, by split <;> simp, h.2.symm⟩
  | paragraph html text =>
    simp only [Refuses, hk] at h
    obtain ⟨first, d, later, hfound, haccepted, hrefused, rfl⟩ := h
    exact .inr (.inl ⟨html, text, first, d, later, rfl, hfound, haccepted, hrefused, rfl⟩)
  | list list =>
    simp only [Refuses, hk] at h
    split at h
    · exact .inl ⟨_, by split <;> simp, h.symm⟩
    · rename_i hlead
      cases h with
      | noDescription blank => exact .inl ⟨_, by simp, rfl⟩
      | classification described refused => exact .inr (.inr (.inl ⟨list, _, rfl, refused, rfl⟩))
      | noName described classified unnamed => exact .inr (.inr (.inr ⟨hlead, rfl⟩))
  | code | rich | rule | comment => simp [Refuses, hk] at h

theorem failsAt_of_refuses (hbefore : ∀ b ∈ before, b.kind ≠ .comment)
    (hall : ContinuesAll settings [] (counted before)) (h : Refuses settings (counted before) b e) :
    FailsAt settings e before b where
  accepted := ⟨_, (steps_counted hbefore).mpr ⟨hall, rfl⟩⟩
  decided d hd := by
    obtain ⟨after, hafter⟩ := hd
    exact assemble_eq_error_iff.mpr (.inl ⟨before, b, after, by simp [← hafter], hall, h⟩)
  place hname := by
    rcases h.error_cases with ⟨_, -, rfl⟩ | ⟨_, _, _, _, _, -, -, -, -, rfl⟩ | ⟨_, _, -, -, rfl⟩ |
      ⟨-, rfl⟩
    · rfl
    · rfl
    · rfl
    · exact absurd rfl (hname _)
  unnamed place hplace := by
    subst hplace
    rcases h.error_cases with ⟨_, hfault, he⟩ | ⟨_, _, _, _, _, -, -, -, -, he⟩ | ⟨_, _, -, -, he⟩ |
      ⟨hlead, he⟩
    · exact absurd (ConvertError.structural.inj he).2.symm hfault
    · cases he
    · cases he
    · obtain ⟨first, hfirst, hplace⟩ := Lead.exists_place hlead
      exact ⟨first, hfirst, (ConvertError.structural.inj he).1.trans hplace⟩
  directive place label fault he := by
    subst he
    rcases h.error_cases with ⟨_, -, he⟩ | ⟨html, text, first, d, later, hk, hfound, haccepted,
      hrefused, he⟩ | ⟨_, _, -, -, he⟩ | ⟨-, he⟩
    · cases he
    · obtain ⟨-, -, rfl⟩ := ConvertError.directive.inj he
      exact ⟨html, text, first, d, later, hk, hfound,
        fun c hc => Directive.accepted_iff.mp (haccepted c hc),
        Directive.not_accepted_iff.mp hrefused, rfl⟩
    · cases he
    · cases he
  classification place label fault he := by
    subst he
    rcases h.error_cases with ⟨_, -, he⟩ | ⟨_, _, _, _, _, -, -, -, -, he⟩ |
      ⟨list, _, hk, hrefused, he⟩ | ⟨-, he⟩
    · cases he
    · cases he
    · obtain ⟨-, -, rfl⟩ := ConvertError.classification.inj he
      exact ⟨list, hk, hrefused⟩
    · cases he

end Assembly

theorem Document.ne_comment_of_eq_append {d : Document} {before after : List Block}
    (h : d.visibleBlocks = before ++ after) : ∀ b ∈ before, b.kind ≠ .comment := fun _ hb =>
  ne_comment_of_visible (h ▸ List.mem_append_left after hb)

theorem mem_of_head?_openLead {bs : List Block} {first : Block}
    (h : (openLead (counted bs)).head? = some first) : first ∈ bs := by
  have hmem := List.mem_reverse.mp (List.mem_of_mem_head? h)
  exact (List.mem_filter.mp (List.mem_reverse.mp ((List.takeWhile_sublist _).mem hmem))).1

theorem Document.nodup_index_read (source : Text) :
    ((read source).blocks.map Block.index).Nodup := by
  have hindex (i : Nat) (bs : List (BlockKind × Span)) :
      (number source i bs).map Block.index = List.range' (i + 1) bs.length := by
    induction bs generalizing i with
    | nil => rfl
    | cons b bs ih => simp [number, ih, List.range'_succ]
  change ((number source 0 _).map Block.index).Nodup
  rw [hindex]
  exact List.nodup_range'

/-- A document that is refused has a first point of failure, a visible block or the end. The error
is that of this point, whatever the blocks behind it are, and it is reported at this block, or at
the first block of the question that has no name or no answers. It is never reported at a block that
is hidden. -/
theorem assemble_error_first {settings : Settings} {d : Document} {e : ConvertError}
    (h : assemble settings d = .error e) :
    ((∃ before b after, d.visibleBlocks = before ++ b :: after ∧ FailsAt settings e before b) ∨
      (∃ a, ({} : Assembly).steps settings d.visibleBlocks = .ok a) ∧
        (∀ d' : Document, d'.visibleBlocks = d.visibleBlocks → assemble settings d' = .error e) ∧
        ∃ first, (openLead d.content).head? = some first ∧
          e = .structural (Assembly.placeOf first)
            (.noAnswers (Lead.label (openLead d.content)))) ∧
    (∃ b ∈ d.visibleBlocks, e.location = Assembly.placeOf b) ∧
    ((d.blocks.map Block.index).Nodup →
      ∀ b ∈ d.blocks, b.index = e.location.block → d.isVisible b = true) := by
  have hfirst : (∃ before b after, d.visibleBlocks = before ++ b :: after ∧
      FailsAt settings e before b) ∨
      (∃ a, ({} : Assembly).steps settings d.visibleBlocks = .ok a) ∧
        (∀ d' : Document, d'.visibleBlocks = d.visibleBlocks → assemble settings d' = .error e) ∧
        ∃ first, (openLead d.content).head? = some first ∧
          e = .structural (Assembly.placeOf first)
            (.noAnswers (Lead.label (openLead d.content))) := by
    rcases assemble_eq_error_iff.mp h with ⟨before, b, after, hd, hall, hb⟩ | ⟨hall, hopen, he⟩
    · exact .inl ⟨before, b, after, hd,
        Assembly.failsAt_of_refuses (Document.ne_comment_of_eq_append hd) hall hb⟩
    · obtain ⟨first, hfirst, hplace⟩ := Lead.exists_place hopen
      have hcomment : ∀ b ∈ d.visibleBlocks, b.kind ≠ .comment := fun _ hb =>
        Document.ne_comment_of_visible hb
      refine .inr ⟨⟨_, (Assembly.steps_counted hcomment).mpr ⟨hall, rfl⟩⟩, fun d' hd' => ?_,
        first, hfirst, by rw [← he, hplace]⟩
      rw [assemble, hd', ← assemble, h]
  have hvisible : ∃ b ∈ d.visibleBlocks, e.location = Assembly.placeOf b := by
    rcases hfirst with ⟨before, b, after, hd, hfails⟩ | ⟨-, -, first, hhead, rfl⟩
    -- only a missing name is told at another block than the one that is refused
    · by_cases hname : ∀ place, e ≠ .structural place .noName
      · exact ⟨b, by simp [hd], hfails.place hname⟩
      · push Not at hname
        obtain ⟨place, rfl⟩ := hname
        obtain ⟨first, hhead, rfl⟩ := hfails.unnamed place rfl
        exact ⟨first, by simp [hd, mem_of_head?_openLead hhead], rfl⟩
    · exact ⟨first, mem_of_head?_openLead hhead, rfl⟩
  refine ⟨hfirst, hvisible, fun hnodup b hb hindex => ?_⟩
  obtain ⟨c, hc, hplace⟩ := hvisible
  obtain ⟨hmem, hshown⟩ := List.mem_filter.mp hc
  have hsame : b.index = c.index := by rw [hindex, hplace]; rfl
  rw [List.inj_on_of_nodup_map hnodup hb hmem hsame]
  exact hshown

theorem assemble_error_first_directive :
    let d := Document.read ("<!-- No? -->\n\n1 + 1 = ?\n\n- 2\n\n".toList ++
      "Pick. @color=red @shuffle=maybe @multi=x\n\n***\n\n- [x] a\n".toList)
    ∃ e, assemble {} d = .error e ∧ e.location = ⟨7, 4⟩ ∧
      (∃ before b after, d.visibleBlocks = before ++ b :: after ∧ b.line = 7 ∧
        FailsAt {} e before b) ∧
      ∀ b ∈ d.blocks, b.index = e.location.block → d.isVisible b = true := by
  intro d
  have hrun : (assemble {} d).map (List.map Question.name) =
      .error (.directive ⟨7, 4⟩ "question at line 7".toList
        ⟨"@shuffle=maybe".toList, .notBoolean⟩) := by
    decide +kernel
  cases h : assemble {} d with
  | ok qs =>
    rw [h] at hrun
    cases hrun
  | error e =>
    rw [h] at hrun
    obtain rfl := Except.error.inj hrun
    obtain ⟨hfirst, -, hhidden⟩ := assemble_error_first h
    refine ⟨_, rfl, rfl, ?_, hhidden (Document.nodup_index_read _)⟩
    rcases hfirst with ⟨before, b, after, hd, hfails⟩ | ⟨-, -, first, -, he⟩
    · have hplace := hfails.place fun place he => by cases he
      exact ⟨before, b, after, hd, (congrArg Location.line hplace).symm, hfails⟩
    · cases he

end Quizdown
