import Quizdown.Proofs.Html.Place
import Quizdown.Proofs.Html.Unwrapped

/-! Blank lines between the items of a list change nothing. They put the text of an item into a
paragraph, and an item is written without its own paragraphs: neither these nor check boxes are
elements of its HTML, whatever stands in the item. -/
set_option autoImplicit false

namespace Quizdown

def Nesting.isRun : Nesting → Bool
  | done => true
  | leaf _ _ rest => rest.isRun
  | element tag _ inner _ rest => tag.isInline && inner.isRun && rest.isRun

def IsRun (events : List Event) : Prop := ∃ n : Nesting, n.isRun = true ∧ n.events = events

/-- An item with this run of text holds these events. The run of a loose item is in a paragraph,
where the check box in front of the text may be left outside. -/
inductive Holds : List Event → List Event → Prop
  | tight (run : List Event) : Holds run run
  | loose (run : List Event) : Holds run (.start .paragraph :: (run ++ [.stop .paragraph]))
  | marked (checked : Bool) (run : List Event) : Holds (.taskMarker checked :: run)
      (.taskMarker checked :: .start .paragraph :: (run ++ [.stop .paragraph]))

variable {run content : List Event} {w : HtmlWriter} {e : Event}

theorem Nesting.isInline_of_start {n : Nesting} (h : n.isRun = true) {tag : Tag}
    (htag : .start tag ∈ n.events) : tag.isInline = true := by
  induction n with
  | done => cases htag
  | leaf e alone rest ih =>
    rw [events_leaf] at htag
    rcases List.mem_cons.mp htag with heq | htag
    · rw [← heq] at alone
      cases alone
    · exact ih h htag
  | element opened span inner stop rest ihInner ihRest =>
    simp only [isRun, Bool.and_eq_true] at h
    obtain ⟨⟨hopened, hinner⟩, hrest⟩ := h
    simp only [events_element, List.mem_cons, List.mem_append, Event.start.injEq, reduceCtorEq,
      false_or] at htag
    rcases htag with rfl | htag | htag
    · exact hopened
    · exact ihInner hinner htag
    · exact ihRest hrest htag

theorem IsRun.ne_start (h : IsRun run) (he : e ∈ run) {tag : Tag} (htag : tag.isInline = false) :
    e ≠ .start tag := by
  rintro rfl
  obtain ⟨n, hn, rfl⟩ := h
  rw [Nesting.isInline_of_start hn he] at htag
  cases htag

theorem IsRun.tail {checked : Bool} (h : IsRun (.taskMarker checked :: run)) : IsRun run := by
  obtain ⟨n, hn, hevents⟩ := h
  cases n with
  | done => cases hevents
  | leaf e alone rest => exact ⟨rest, hn, (List.cons.inj hevents).2⟩
  | element tag span inner stop rest =>
    cases (List.cons.inj (Nesting.events_element .. ▸ hevents)).1

/-! HTML. -/

namespace HtmlWriter

theorem emit_hadParagraph (he : e ≠ .start .paragraph) (b : Bool) :
    ({ w with hadParagraph := b } : HtmlWriter).emit e = w.emit e := by
  cases e with
  | start tag =>
    cases tag with
    | paragraph => exact absurd rfl he
    | list start => cases start <;> rfl
    | _ => rfl
  | _ => rfl

theorem next_hadParagraph (he : e ≠ .start .paragraph) (b : Bool) :
    ({ w with hadParagraph := b } : HtmlWriter).next e = { w.next e with hadParagraph := b } := by
  cases e with
  | start tag =>
    by_cases himages : w.images = 0
    · have hstart := @next_start { w with hadParagraph := b } tag himages
      rw [hstart, next_start himages]
      cases tag with
      | paragraph => exact absurd rfl he
      | _ => rfl
    · have hstart := @next_start_inside { w with hadParagraph := b } tag himages
      rw [hstart, next_start_inside himages]
      cases tag <;> rfl
  | stop tag => cases tag <;> simp only [next] <;> split_ifs <;> rfl
  | _ => rfl

theorem render_hadParagraph {es : List Event} (h : ∀ e ∈ es, e ≠ .start .paragraph) (b : Bool) :
    ({ w with hadParagraph := b } : HtmlWriter).render es = w.render es := by
  induction es generalizing w with
  | nil => rfl
  | cons e es ih =>
    obtain ⟨he, hes⟩ := List.forall_mem_cons.mp h
    rw [render, render, emit_hadParagraph he, next_hadParagraph he, ih hes]

theorem render_item_paragraph (h : IsRun run) :
    item.render (.start .paragraph :: (run ++ [.stop .paragraph])) = item.render run := by
  have hplain : ∀ e ∈ run, e ≠ .start .paragraph := fun e he => h.ne_start he rfl
  obtain ⟨n, -, rfl⟩ := h
  have hlevel := @level_run { item with hadParagraph := true } n rfl
  have hbare : (({ item with hadParagraph := true } : HtmlWriter).run n.events).bare = true := by
    rw [bare, hlevel.forItem, hlevel.lists]
    rfl
  have hstop : (({ item with hadParagraph := true } : HtmlWriter).run n.events).emit
      (.stop .paragraph) = [] := (emit_stop hlevel.images).trans (if_pos hbare)
  have hstart : item.render (.start .paragraph :: (n.events ++ [.stop .paragraph])) =
      ({ item with hadParagraph := true } : HtmlWriter).render
        (n.events ++ [.stop .paragraph]) := rfl
  rw [hstart, render_append, render_hadParagraph hplain, render, hstop, render, List.nil_append,
    List.append_nil]

end HtmlWriter

/-! Plain text and check box. -/

theorem rawPlainText_concat (es : List Event) (e : Event) :
    rawPlainText (es ++ [e]) = rawPlainText es ++ e.plain (rawPlainText es) := by
  rw [rawPlainText, List.foldl_append]
  rfl

theorem plainText_paragraph (run : List Event) :
    plainText (.start .paragraph :: (run ++ [.stop .paragraph])) = plainText run := by
  have hstart : rawPlainText (.start .paragraph :: (run ++ [.stop .paragraph])) =
      rawPlainText (run ++ [.stop .paragraph]) := rfl
  rw [plainText, hstart, rawPlainText_concat, plainText, Event.plain]
  split_ifs
  · rw [List.append_nil]
  · exact Text.trim_append_blanks _ (List.forall_mem_singleton.mpr rfl)

namespace Item

def box? : Event → Option Bool
  | .taskMarker checked => some checked
  | _ => none

theorem checkedOf_eq (h : ∀ e ∈ run, ∀ start, e ≠ .start (.list start)) :
    checkedOf run = run.findSome? box? := by
  rw [checkedOf, List.takeWhile_eq_self_iff.mpr]
  · rfl
  · intro e he
    split
    · rename_i start
      exact absurd rfl (h _ he start)
    · rfl

theorem checkedOf_paragraph (h : ∀ e ∈ run, ∀ start, e ≠ .start (.list start)) :
    checkedOf (.start .paragraph :: (run ++ [.stop .paragraph])) = checkedOf run := by
  have hwhole : ∀ e ∈ .start .paragraph :: (run ++ [.stop .paragraph]),
      ∀ start, e ≠ .start (.list start) := by
    simp only [List.forall_mem_cons, List.forall_mem_append]
    exact ⟨fun start => by simp, h, fun start => by simp, by simp⟩
  have hskip : box? (.start .paragraph) = none := rfl
  have hend : [Event.stop .paragraph].findSome? box? = none := rfl
  rw [checkedOf_eq hwhole, checkedOf_eq h, List.findSome?_cons, hskip, List.findSome?_append, hend,
    Option.or_none]

theorem ofEvents_paragraph (h : IsRun run) :
    ofEvents (.start .paragraph :: (run ++ [.stop .paragraph])) = ofEvents run := by
  rw [ofEvents, HtmlWriter.render_item_paragraph h, plainText_paragraph,
    checkedOf_paragraph fun e he start => h.ne_start he rfl]
  rfl

theorem ofEvents_taskMarker (checked : Bool) (es : List Event) :
    ofEvents (.taskMarker checked :: es) = { ofEvents es with checked := some checked } := rfl

/-- A loose item is the item that its run alone makes. -/
theorem ofEvents_of_holds (h : Holds run content) (hrun : IsRun run) :
    ofEvents content = ofEvents run := by
  cases h with
  | tight => rfl
  | loose => exact ofEvents_paragraph hrun
  | marked checked run =>
    rw [ofEvents_taskMarker, ofEvents_taskMarker, ofEvents_paragraph hrun.tail]

theorem map_ofEvents_of_holds {runs contents : List (List Event)}
    (h : List.Forall₂ Holds runs contents) (hruns : ∀ run ∈ runs, IsRun run) :
    contents.map ofEvents = runs.map ofEvents := by
  induction h with
  | nil => rfl
  | cons hholds _ ih =>
    obtain ⟨hrun, hmore⟩ := List.forall_mem_cons.mp hruns
    rw [List.map_cons, List.map_cons, ofEvents_of_holds hholds hrun, ih hmore]

end Item

theorem AnswerList.ofEvents_of_holds {runs : List (List Event)} {inner : Nesting}
    (h : List.Forall₂ Holds runs (inner.items.map Nesting.events))
    (hruns : ∀ run ∈ runs, IsRun run) (ordered : Bool) :
    AnswerList.ofEvents ordered inner.events = ⟨ordered, runs.map Item.ofEvents⟩ := by
  rw [AnswerList.ofEvents, Item.contents_events, Item.map_ofEvents_of_holds h hruns]

open Html (openLists)

/-- Blank lines between its items do not change a list. An item with one run of text, with or
without a check box, is the same item when the run is wrapped in a paragraph; so two lists that hold
the same runs are the same answer list, whichever of their items are loose. And the HTML of an item
can be read, whatever the item holds beside raw HTML: it has no check box, and a tag of a paragraph
stands inside a list only. -/
theorem Item.blankLines_have_no_effect :
    (∀ run content, IsRun run → Holds run content → ofEvents content = ofEvents run) ∧
      (∀ (runs : List (List Event)) (inner other : Nesting), (∀ run ∈ runs, IsRun run) →
        List.Forall₂ Holds runs (inner.items.map Nesting.events) →
        List.Forall₂ Holds runs (other.items.map Nesting.events) → ∀ ordered,
          AnswerList.ofEvents ordered inner.events = AnswerList.ofEvents ordered other.events) ∧
      ∀ n : Nesting, (∀ e ∈ n.events, e.isRaw = false) → ∃ pieces,
        Html.pieces? (ofEvents n.events).html = some pieces ∧
          ∀ before t after, Html.tags pieces = before ++ t :: after →
            t.name ≠ "input".toList ∧ (t.name = "p".toList → 0 < openLists 0 before) := by
  refine ⟨fun run content hrun hholds => ofEvents_of_holds hholds hrun, ?_, ?_⟩
  · intro runs inner other hruns hinner hother ordered
    rw [AnswerList.ofEvents_of_holds hinner hruns, AnswerList.ofEvents_of_holds hother hruns]
  · intro n hraw
    have hreads := HtmlWriter.reads_nesting (w := .item) n hraw rfl
    obtain ⟨before, inside, behind, htrim, hpieces, -⟩ := Html.reads_trim hreads
    have htags : Html.tags (n.pieces .item) = Html.tags inside := by
      rw [hpieces, Html.tags_append, Html.tags_append, Html.tags_chars, Html.tags_chars,
        List.nil_append, List.append_nil]
    have hunwrapped := HtmlWriter.unwrapped_pieces (w := .item) n rfl rfl
    exact ⟨inside, Html.pieces?_eq_some_iff.mpr htrim, htags ▸ hunwrapped.each⟩

theorem Item.blankLines_have_no_effect_task :
    let at0 : Span := ⟨0, 0⟩
    let wrap (tag : Tag) (inner rest : Nesting) : Nesting := .element tag at0 inner at0 rest
    let text (s : String) (rest : Nesting) : Nesting := .leaf ⟨.text s.toList, at0⟩ rfl rest
    let box (rest : Nesting) : Nesting := .leaf ⟨.taskMarker true, at0⟩ rfl rest
    let first := text "a " (wrap .emphasis (text "b" .done) .done)
    let tight := wrap .item (box first) (wrap .item (text "c" .done) .done)
    let mixed := wrap .item (box (wrap .paragraph first .done)) (wrap .item (text "c" .done) .done)
    let n := wrap .paragraph (text "d" .done)
      (wrap (.list none) (wrap .item (wrap .paragraph (text "e" .done) .done) .done) .done)
    AnswerList.ofEvents false mixed.events = AnswerList.ofEvents false tight.events ∧
      AnswerList.ofEvents false tight.events = ⟨false,
        [⟨"a <em>b</em>".toList, "a b".toList, some true⟩, ⟨"c".toList, "c".toList, none⟩]⟩ ∧
      (Item.ofEvents n.events).html = "d<ul><li><p>e</p></li></ul>".toList ∧
      ∃ pieces, Html.pieces? (Item.ofEvents n.events).html = some pieces ∧
        ∀ before t after, Html.tags pieces = before ++ t :: after →
          t.name ≠ "input".toList ∧ (t.name = "p".toList → 0 < openLists 0 before) := by
  intro at0 wrap text box first tight mixed n
  obtain ⟨-, hlists, hhtml⟩ := Item.blankLines_have_no_effect
  have hruns : ∀ run ∈ [(box first).events, (text "c" .done).events], IsRun run :=
    List.forall_mem_cons.mpr ⟨⟨box first, rfl, rfl⟩,
      List.forall_mem_singleton.mpr ⟨text "c" .done, rfl, rfl⟩⟩
  have hmixed : List.Forall₂ Holds [(box first).events, (text "c" .done).events]
      (mixed.items.map Nesting.events) := .cons (.marked true _) (.cons (.tight _) .nil)
  have htight : List.Forall₂ Holds [(box first).events, (text "c" .done).events]
      (tight.items.map Nesting.events) := .cons (.tight _) (.cons (.tight _) .nil)
  exact ⟨hlists _ mixed tight hruns hmixed htight false, by decide +kernel, by decide +kernel,
    hhtml n (by decide)⟩

end Quizdown
