import Quizdown.Converter
import Quizdown.Proofs.Assembly.Questions
import Quizdown.Proofs.Directive.Alone
import Quizdown.Proofs.Directive.Visible

/-!
Descriptions that show nothing. A paragraph of directives adds what is left of it without them; this
shows nothing, but tags of emphasis and hard breaks are left, and blanks at the end behind a comment.
Only a block that adds such HTML lets a question have a description that shows nothing.
-/
set_option autoImplicit false

namespace Quizdown

namespace Assembly

variable {settings : Settings} {a next : Assembly} {b : Block} {html text : Text}

def describe (settings : Settings) (a : Assembly) (b : Block) : Draft :=
  let d := a.openDraft settings (placeOf b)
  Draft.append
    { d with
      config := Directive.resolved b.kind.directives d.config
      directives := d.directives ++ b.kind.directives }
    b.kind.descriptionHtml b.kind.plainText

theorem description_describe (settings : Settings) (a : Assembly) (b : Block) :
    (a.describe settings b).description =
      (a.openDraft settings (placeOf b)).description ++ b.kind.descriptionHtml := rfl

theorem step_paragraph (hk : b.kind = .paragraph html text) :
    a.step settings b = .ok next ↔ (∀ d ∈ b.kind.directives, d.accepted = true) ∧
      { a with draft := some (a.describe settings b), afterList := false } = next := by
  have hadd (result : Draft) := @addParagraph_eq_ok_iff (a.openDraft settings (placeOf b)) result
    html text
  simp only [step, describe, hk]
  cases h : addParagraph (a.openDraft settings (placeOf b)) html text with
  | error e =>
    rw [h] at hadd
    refine iff_of_false (by simp) fun hok => ?_
    cases (hadd _).mpr ⟨hok.1, rfl⟩
  | ok d =>
    obtain ⟨haccepted, heq⟩ := (hadd d).mp h
    subst heq
    simp only [Except.ok.injEq]
    exact (and_iff_right haccepted).symm

end Assembly

/-! Blocks of a document. -/

theorem BlockReader.kind_of_mem_run {r : BlockReader} {es : List PlacedEvent}
    {b : BlockKind × Span} (h : b ∈ (r.run es).1) :
    b.1 = .rule ∨ ∃ tag inner, b.1 = .ofEvents tag inner := by
  induction es generalizing r with
  | nil => cases h
  | cons e es ih =>
    have hpush : ∀ k span, (r.push e).2 = some (k, span) →
        k = .rule ∨ ∃ tag inner, k = .ofEvents tag inner := by
      intro k span hsome
      rw [push] at hsome
      split at hsome
      · split at hsome <;> cases hsome
      · split at hsome
        · cases hsome
        · split at hsome
          · cases hsome
          · cases hsome
            exact .inr ⟨_, _, rfl⟩
      · split at hsome
        · cases hsome
          exact .inl rfl
        · cases hsome
      · cases hsome
      · cases hsome
    rw [run] at h
    split at h
    · exact ih h
    · rename_i next k span heq
      rcases List.mem_cons.mp h with rfl | h
      · exact hpush k span (by rw [heq])
      · exact ih h

namespace Document

variable {source : Text} {b : Block}

theorem kind_of_mem_read (h : b ∈ (read source).blocks) :
    b.kind = .rule ∨ ∃ tag inner, b.kind = .ofEvents tag inner := by
  change b ∈ number source 0 (BlockReader.run {} (Markdown.read source)).1 at h
  rw [number_eq_mapIdx] at h
  obtain ⟨i, hi, rfl⟩ := List.mem_mapIdx.mp h
  exact BlockReader.kind_of_mem_run (List.getElem_mem hi)

end Document

theorem HtmlWriter.exists_codeOpening (info : Option Text) :
    ∃ s, codeOpening info = "<pre>".toList ++ s := by
  have hplain : "<pre><code>".toList = "<pre>".toList ++ "<code>".toList := by decide
  cases info with
  | none => exact ⟨_, hplain⟩
  | some info =>
    by_cases hinfo : info = []
    · exact hinfo ▸ ⟨_, hplain⟩
    · exact ⟨_, codeOpening_eq hinfo⟩

theorem BlockKind.not_showsNothing_code (info : Option Text) (inner : List Event) :
    ¬ Html.ShowsNothing (ofEvents (.codeBlock info) inner).descriptionHtml := by
  have hemit : HtmlWriter.block.emit (.start (.codeBlock info)) = HtmlWriter.codeOpening info := rfl
  obtain ⟨s, hs⟩ := HtmlWriter.exists_codeOpening info
  rw [ofEvents, descriptionHtml, wrap, List.cons_append, HtmlWriter.render, hemit, hs,
    List.append_assoc]
  exact Html.not_showsNothing_pre _

/-! Descriptions. -/

/-- The block adds HTML to a description, and this shows nothing: a paragraph of which nothing but
directives is seen, or a block that is neither a paragraph nor code. -/
inductive BlockKind.Hollow : BlockKind → Prop
  | paragraph {es : List Event} (left : (ofEvents .paragraph es).descriptionHtml ≠ [])
      (nothing : Html.ShowsNothing (Directive.strip (wrap .paragraph es))) :
      Hollow (ofEvents .paragraph es)
  | rich {html text : Text} (left : html ≠ []) (nothing : Html.ShowsNothing html) :
      Hollow (rich html text)

theorem BlockKind.hollow_of_ofEvents {tag : Tag} {inner : List Event}
    (hleft : (ofEvents tag inner).descriptionHtml ≠ [])
    (hnothing : Html.ShowsNothing (ofEvents tag inner).descriptionHtml) :
    (ofEvents tag inner).Hollow := by
  cases tag with
  | heading | list => exact absurd rfl hleft
  | codeBlock info => exact absurd hnothing (not_showsNothing_code info inner)
  | paragraph =>
    refine .paragraph hleft ?_
    have hstrip : (ofEvents .paragraph inner).descriptionHtml =
        Directive.strip (wrap .paragraph inner) := by
      rw [ofEvents, descriptionHtml] at hleft ⊢
      split at hleft
      · exact absurd rfl hleft
      · rename_i hne
        exact if_neg hne
    exact hstrip ▸ hnothing
  | htmlBlock =>
    rw [ofEvents] at hleft hnothing ⊢
    split at hleft
    · exact absurd rfl hleft
    · rename_i hne
      rw [if_neg hne] at hnothing ⊢
      exact .rich hleft hnothing
  | _ => exact .rich hleft hnothing

theorem Lead.exists_showsNothing {lead : List Block} (hne : description lead ≠ [])
    (h : Html.ShowsNothing (description lead)) :
    ∃ b ∈ lead, b.kind.descriptionHtml ≠ [] ∧ Html.ShowsNothing b.kind.descriptionHtml := by
  induction lead with
  | nil => exact absurd rfl hne
  | cons b lead ih =>
    rw [description, List.flatMap_cons] at hne h
    by_cases hb : b.kind.descriptionHtml = []
    · rw [hb, List.nil_append] at hne h
      obtain ⟨c, hc, hleft⟩ := ih hne h
      exact ⟨c, List.mem_cons_of_mem b hc, hleft⟩
    · exact ⟨b, List.mem_cons_self, hb, h.of_append⟩

/-- A question whose description shows nothing has a hollow block. -/
theorem exists_hollow_of_mem_parseQuiz {settings : Settings} {source : Text} {qs : List Question}
    (h : parseQuiz settings source = .ok qs) {q : Question} (hq : q ∈ qs)
    (hnothing : Html.ShowsNothing q.description) :
    ∃ front, front <+: (Document.read source).content ∧
      q.description = Lead.description (openLead front) ∧
      ∃ b ∈ openLead front, b.kind.Hollow := by
  obtain ⟨hall, -, rfl⟩ := assemble_eq_ok_iff.mp h
  obtain ⟨front, list, hfront, hcompleted, hquestion⟩ :=
    Assembly.exists_completed_of_mem_questionsFrom hall hq
  have hdescription : q.description = Lead.description (openLead front) := by
    unfold Lead.question? at hquestion
    split at hquestion
    · cases hquestion
      rfl
    · cases hquestion
  have hne : Lead.description (openLead front) ≠ [] := by
    intro hnil
    have hdescribed := hcompleted.described
    rw [hnil] at hdescribed
    cases hdescribed
  obtain ⟨b, hb, hleft, hshown⟩ := Lead.exists_showsNothing hne (hdescription ▸ hnothing)
  have hread : b ∈ (Document.read source).blocks := by
    have hcontent := hfront.subset (Assembly.mem_of_mem_openLead hb)
    exact (List.mem_filter.mp (List.mem_filter.mp hcontent).1).1
  refine ⟨front, hfront, hdescription, b, hb, ?_⟩
  rcases Document.kind_of_mem_read hread with hrule | ⟨tag, inner, hk⟩
  · exact absurd (by rw [hrule]; rfl) hleft
  · rw [hk] at hleft hshown ⊢
    exact BlockKind.hollow_of_ofEvents hleft hshown

/-- A paragraph of directives, in comments or not, adds nothing to the description exactly if there is
neither emphasis nor a hard break in it, and no blank at its end behind a comment; otherwise it adds
their tags and the blanks, and these show nothing. So a question may have a description that shows
nothing, but only if one of its blocks is hollow; and nothing but directives is seen of a paragraph
of which nothing is seen without them. -/
theorem directivesOnly_description (settings : Settings) :
    (∀ es front tokens, DirectivesOnly es front tokens →
      ∀ (a : Assembly) (b : Block), b.kind = .ofEvents .paragraph es →
        ((∃ next, a.step settings b = .ok next) ↔
          ∀ t ∈ tokens, t.found.accepted = true) ∧
        ∀ next, a.step settings b = .ok next →
          ∃ d html, next.draft = some d ∧
            d.description = (a.openDraft settings (Assembly.placeOf b)).description ++ html ∧
            Html.ShowsNothing html ∧
            (html = [] ↔ (∀ e ∈ es, e.isMark = false) ∧
              Directive.endsLoose (es.flatMap Event.atoms) = false)) ∧
    (∀ source qs, parseQuiz settings source = .ok qs →
      ∀ q ∈ qs, Html.ShowsNothing q.description →
        ∃ front, front <+: (Document.read source).content ∧
          q.description = Lead.description (openLead front) ∧
          ∃ b ∈ openLead front, b.kind.Hollow) ∧
    ∀ n : Nesting, n.fits .flow = true →
      Directive.tokensOutside false
        (Directive.parts (BlockKind.wrap .paragraph n.events)) = true →
      (Html.ShowsNothing (Directive.strip (BlockKind.wrap .paragraph n.events)) ↔
        Directive.ShowsTokensOnly (BlockKind.wrap .paragraph n.events)) := by
  refine ⟨fun es front tokens h a b hk => ?_, fun source qs h q hq hnothing =>
    exists_hollow_of_mem_parseQuiz h hq hnothing, fun n => Directive.showsNothing_strip_iff⟩
  obtain ⟨hdirectives, hnothing, hmarks⟩ := h.descriptionHtml
  have hstep (next : Assembly) := @Assembly.step_paragraph settings a next b _ _ hk
  rw [← hk] at hdirectives hnothing hmarks
  constructor
  · simp only [hstep, hdirectives, List.forall_mem_map]
    exact ⟨fun ⟨next, hall, _⟩ => hall, fun hall => ⟨_, hall, rfl⟩⟩
  · intro next hnext
    obtain ⟨-, rfl⟩ := (hstep next).mp hnext
    exact ⟨_, _, rfl, Assembly.description_describe settings a b, hnothing, hmarks⟩

theorem directivesOnly_description_two :
    let lines := [Event.text "@shuffle=no".toList, .softBreak,
      .inlineHtml "<!-- @multi=yes -->".toList]
    let tokens : List Mention :=
      [⟨⟨"shuffle".toList, "no".toList⟩, false,
          [.softBreak, .comment "<!--".toList, .comment [' ']]⟩,
        ⟨⟨"multi".toList, "yes".toList⟩, true, [.comment [' '], .comment "-->".toList]⟩]
    let b : Block := ⟨.ofEvents .paragraph lines, ⟨0, 31⟩, 1, 1⟩
    let source := "## T\n\n*@shuffle=no*\n\n- 4\n".toList
    let at0 : Span := ⟨0, 0⟩
    let n : Nesting :=
      .element .emphasis at0 (.leaf ⟨.text "@shuffle=no".toList, at0⟩ rfl .done) at0 .done
    let html := BlockKind.wrap .paragraph n.events
    (DirectivesOnly lines [] tokens ∧ (∀ t ∈ tokens, t.found.accepted = true) ∧
      ∃ next d, ({} : Assembly).step {} b = .ok next ∧ next.draft = some d ∧
        d.description = []) ∧
    (∃ qs, parseQuiz {} source = .ok qs ∧ ∃ q ∈ qs, Html.ShowsNothing q.description ∧
      ∃ front, front <+: (Document.read source).content ∧
        q.description = Lead.description (openLead front) ∧
        ∃ b ∈ openLead front, b.kind.Hollow) ∧
    (n.fits .flow = true ∧ Directive.tokensOutside false (Directive.parts html) = true) ∧
      Html.ShowsNothing (Directive.strip html) ∧ Directive.ShowsTokensOnly html := by
  intro lines tokens b source at0 n html
  obtain ⟨hparagraph, hquestion, hseen⟩ := directivesOnly_description {}
  refine ⟨?_, ?_, ?_⟩
  · have honly : DirectivesOnly lines [] tokens := by decide +kernel
    have haccepted : ∀ t ∈ tokens, t.found.accepted = true := by decide +kernel
    obtain ⟨htaken, hadded⟩ := hparagraph lines [] tokens honly {} b rfl
    obtain ⟨next, hnext⟩ := htaken.mpr haccepted
    obtain ⟨d, html, hdraft, hdescription, -, hnone⟩ := hadded next hnext
    have hempty : html = [] := hnone.mpr (by decide +kernel)
    exact ⟨honly, haccepted, next, d, hnext, hdraft, by rw [hdescription, hempty]; rfl⟩
  · have hparse : (parseQuiz {} source).map (List.map Question.description) =
        .ok ["<p><em></em></p>".toList] := by decide +kernel
    cases hqs : parseQuiz {} source with
    | error e =>
      rw [hqs] at hparse
      cases hparse
    | ok qs =>
      rw [hqs] at hparse
      have hdescriptions : qs.map Question.description = ["<p><em></em></p>".toList] :=
        Except.ok.inj hparse
      obtain ⟨q, hq, hdescription⟩ := List.mem_map.mp (hdescriptions ▸ List.mem_singleton_self _)
      have hnothing : Html.ShowsNothing q.description := hdescription ▸ by decide +kernel
      exact ⟨qs, rfl, q, hq, hnothing, hquestion source qs hqs q hq hnothing⟩
  · have hfits : n.fits .flow = true := by decide
    have houtside : Directive.tokensOutside false (Directive.parts html) = true := by
      decide +kernel
    have hnothing : Html.ShowsNothing (Directive.strip html) := by decide +kernel
    exact ⟨⟨hfits, houtside⟩, hnothing, (hseen n hfits houtside).mp hnothing⟩

/-- The paragraph of a document holds one directive in emphasis, and it becomes a description that
shows nothing. -/
theorem emphasized_directive_described :
    let source := "## T\n\n*@shuffle=no*\n\n- 4\n".toList
    let es := [Event.start .emphasis, .text "@shuffle=no".toList, .stop .emphasis]
    DirectivesOnly es [.tag "<em>".toList]
        [⟨⟨"shuffle".toList, "no".toList⟩, false, [.tag "</em>".toList]⟩] ∧
      BlockKind.ofEvents .paragraph es ∈
        (Document.read source).visibleBlocks.map Block.kind ∧
      (parseQuiz {} source).map (List.map Question.description) =
        .ok ["<p><em></em></p>".toList] ∧
      Html.ShowsNothing "<p><em></em></p>".toList := by
  decide +kernel

end Quizdown
