import Quizdown.Document.Build
import Quizdown.Proofs.AnswerList.Shape
import Quizdown.Proofs.Html.Cut
import Quizdown.Proofs.Html.Unwrapped
import Quizdown.Proofs.Text.OutsideTags

/-! The two halves of a pair go into two elements of the document that is written, so each has to
stand on its own there. The item is split in its HTML, at a separator that is in no tag; but it may
well be in an element or in a reference. The halves stand on their own exactly if the line itself is
cut at the separator and something is to be seen on both sides. -/
set_option autoImplicit false

namespace Quizdown
namespace Html

/-- There is something to be seen: a character that is no blank, or an image. -/
def Visible (pieces : List Piece) : Prop :=
  (∃ c ∈ shown pieces, Text.isBlank c = false) ∨ ∃ t ∈ tags pieces, t.name = "img".toList

/-- A text that can stand on its own in a page: no tag and no reference in it is cut, it closes the
elements that it opens and no others, and there is something to be seen. -/
def SelfContained (s : Text) : Prop :=
  ∃ pieces, pieces? s = some pieces ∧ nest [] (tags pieces) = some [] ∧ Visible pieces

instance (pieces : List Piece) : Decidable (Visible pieces) :=
  decidable_of_iff
    ((shown pieces).any (!Text.isBlank ·) ∨ (tags pieces).any (·.name == "img".toList))
    (by simp [Visible])

instance (s : Text) : Decidable (SelfContained s) :=
  decidable_of_iff ((pieces? s).any fun ps => nest [] (tags ps) = some [] ∧ Visible ps)
    (by simp [SelfContained, Option.any_eq_true])

variable {s : Text} {pieces : List Piece}

theorem SelfContained.whole (h : SelfContained s) : Whole s := by
  obtain ⟨pieces, hpieces, hnest, -⟩ := h
  exact ⟨shown pieces, pieces, pieces?_eq_some_iff.mp hpieces, hnest, rfl⟩

theorem whole_blanks {blanks : Text} (h : ∀ c ∈ blanks, Text.isBlank c = true) : Whole blanks :=
  ⟨blanks, blanks.map .char, reads_blanks h, by rw [tags_chars]; rfl, shown_chars blanks⟩

theorem Whole.untrim (h : Whole (Text.trim s)) : Whole s := by
  obtain ⟨before, behind, hs, hbefore, hbehind⟩ := Text.exists_trim s
  rw [hs]
  exact ((whole_blanks hbefore).append h).append (whole_blanks hbehind)

theorem visible_blanks_append {before behind : Text}
    (hbefore : ∀ c ∈ before, Text.isBlank c = true)
    (hbehind : ∀ c ∈ behind, Text.isBlank c = true) :
    Visible (before.map .char ++ pieces ++ behind.map .char) ↔ Visible pieces := by
  have hnone (blanks : Text) (h : ∀ c ∈ blanks, Text.isBlank c = true) :
      ¬ ∃ c ∈ blanks, Text.isBlank c = false := by
    simpa using h
  simp only [Visible, shown_append, tags_append, shown_chars, tags_chars, List.nil_append,
    List.append_nil, List.mem_append, or_and_right, exists_or, hnone before hbefore,
    hnone behind hbehind, false_or, or_false]

theorem selfContained_trim_iff (h : Reads s pieces) :
    SelfContained (Text.trim s) ↔ nest [] (tags pieces) = some [] ∧ Visible pieces := by
  obtain ⟨before, inside, behind, hinside, rfl, hbefore, hbehind⟩ := reads_trim h
  have hpieces := pieces?_eq_some_iff.mpr hinside
  rw [visible_blanks_append hbefore hbehind, tags_append, tags_append, tags_chars, tags_chars,
    List.nil_append, List.append_nil]
  constructor
  · rintro ⟨found, hfound, hnest, hvisible⟩
    rw [hpieces] at hfound
    obtain rfl := Option.some.inj hfound
    exact ⟨hnest, hvisible⟩
  · rintro ⟨hnest, hvisible⟩
    exact ⟨inside, hpieces, hnest, hvisible⟩

end Html

open Html (SelfContained Whole)

def Nesting.Visible (n : Nesting) : Prop :=
  (∃ c ∈ n.shown, Text.isBlank c = false) ∨ ∃ url title, Event.start (.image url title) ∈ n.events

/-- Between two places in the line itself there is just the separator, and something is to be seen
in front of it and behind it. -/
structure Nesting.CutAt (separator : Text) (n front back : Nesting) : Prop where
  between : ∃ rest middle, Divides n front rest ∧ Divides rest middle back ∧
    HtmlWriter.item.render middle.events = separator
  front : front.Visible
  back : back.Visible

namespace HtmlWriter

variable {w : HtmlWriter} {n : Nesting} {tag : Tag} {t : Html.Tag}

theorem name_openingTags_ne_img (h : t ∈ w.openingTags tag) : t.name ≠ "img".toList := by
  intro himg
  rcases name_openingTags h with hname | hname
  · cases isVoid_of_mem_elements (himg ▸ hname)
  · exact absurd (himg.symm.trans hname) (by decide)

theorem name_closingTags_ne_img (h : t ∈ w.closingTags tag) : t.name ≠ "img".toList := by
  intro himg
  rcases name_closingTags h with hname | hname
  · cases isVoid_of_mem_elements (himg ▸ hname)
  · exact absurd (himg.symm.trans hname) (by decide)

theorem exists_img_iff (hn : n.fits .line = true) :
    (∃ t ∈ Html.tags (n.pieces item), t.name = "img".toList) ↔
      ∃ url title, Event.start (.image url title) ∈ n.events := by
  induction n with
  | done => simp [Nesting.pieces, Html.tags, Nesting.events, Nesting.placed]
  | leaf e alone rest ih =>
    have hleaf : ¬ ∃ t ∈ Html.tags (item.leafPieces e.event), t.name = "img".toList := by
      rintro ⟨t, ht, himg⟩
      exact absurd (himg ▸ name_leafPieces rfl ht) (by decide)
    have halone (url title : Text) : Event.start (.image url title) ≠ e.event := fun h => by
      rw [← h] at alone
      cases alone
    rw [Nesting.pieces, Html.tags_append, Nesting.events_leaf]
    simp only [List.mem_append, or_and_right, exists_or, List.mem_cons, halone, hleaf, false_or]
    exact ih (Bool.and_eq_true_iff.mp hn).2
  | element tag span inner stop rest ihInner ihRest =>
    obtain ⟨htag, hinner, hrest⟩ := Nesting.fits_line_element hn
    rw [Nesting.events_element]
    rcases tag.image_or with ⟨url, title, rfl⟩ | hno
    · refine iff_of_true ⟨imageTag url title inner, ?_, rfl⟩ ⟨url, title, List.mem_cons_self ..⟩
      rw [Nesting.pieces, Html.tags_cons_tag]
      exact List.mem_cons_self ..
    · have hopening : ¬ ∃ t ∈ item.openingTags tag, t.name = "img".toList := by
        rintro ⟨t, ht, himg⟩
        exact name_openingTags_ne_img ht himg
      have hclosing : ¬ ∃ t ∈ item.closingTags tag, t.name = "img".toList := by
        rintro ⟨t, ht, himg⟩
        exact name_closingTags_ne_img ht himg
      have hstart (url title : Text) : Event.start (.image url title) ≠ .start tag :=
        fun h => hno url title (Event.start.inj h).symm
      rw [Nesting.pieces_element hno, afterStart_inline htag hno, run_line hinner rfl,
        afterStop_inline htag]
      simp only [Html.tags_append, Html.tags_map_tag, List.mem_append, List.mem_cons, or_and_right,
        exists_or, hopening, hclosing, hstart, false_or, reduceCtorEq]
      rw [ihInner hinner, ihRest hrest]

theorem selfContained_render_iff (hn : n.fits .line = true) :
    SelfContained (Text.trim (item.render n.events)) ↔ n.Visible := by
  have hreads : Html.Reads (item.render n.events) (n.pieces item) :=
    reads_nesting n (Nesting.not_raw hn) rfl
  obtain ⟨⟨pieces, hpieces, hnest, hshown⟩, -⟩ :=
    fragment_nesting (w := item) n hn rfl (.inr (.inl rfl)) []
  obtain rfl := hreads.unique hpieces
  rw [Html.selfContained_trim_iff hreads, Html.Visible, hshown, exists_img_iff hn]
  exact and_iff_right hnest

end HtmlWriter

namespace Item

open HtmlWriter

variable {n : Nesting} {separator : Text} {a : Answer}

/-- Where the HTML of an item is split, both halves can stand on their own and the separator cuts
nothing exactly if the line itself is cut there. -/
theorem halves_iff (hn : n.fits .line = true) {key value : Text}
    (hhtml : (ofEvents n.events).html = key ++ separator ++ value) :
    (SelfContained (Text.trim key) ∧ SelfContained (Text.trim value) ∧
        (Html.pieces? separator).isSome = true) ↔
      ∃ front back, n.CutAt separator front back ∧
        Text.trim key = Text.trim (item.render front.events) ∧
        Text.trim value = Text.trim (item.render back.events) := by
  constructor
  · rintro ⟨hkey, hvalue, hseparator⟩
    obtain ⟨pieces, hpieces⟩ := Option.isSome_iff_exists.mp hseparator
    -- the blanks that were trimmed from the line stand around its halves again
    obtain ⟨before, behind, hline, hbefore, hbehind⟩ := Text.exists_trim (item.render n.events)
    have hfront : Whole (before ++ key) :=
      (Html.whole_blanks hbefore).append hkey.whole.untrim
    have hback : Whole (value ++ behind) :=
      hvalue.whole.untrim.append (Html.whole_blanks hbehind)
    have hcut : item.render n.events = (before ++ key) ++ (separator ++ (value ++ behind)) := by
      have hitem : Text.trim (item.render n.events) = key ++ separator ++ value := hhtml
      rw [hitem] at hline
      rw [hline]
      simp only [List.append_assoc]
    obtain ⟨front, rest, middle, back, hdivides, hagain, hkeyHtml, hseparatorHtml, hvalueHtml⟩ :=
      exists_divides_around hn hcut hfront (Html.pieces?_eq_some_iff.mp hpieces) hback
    have hkeyTrim : Text.trim key = Text.trim (item.render front.events) := by
      rw [hkeyHtml, Text.trim_blanks_append hbefore]
    have hvalueTrim : Text.trim value = Text.trim (item.render back.events) := by
      rw [hvalueHtml, Text.trim_append_blanks _ hbehind]
    have hfrontFits := (hdivides.fits hn).1
    have hbackFits := (hagain.fits (hdivides.fits hn).2).2
    refine ⟨front, back, ⟨⟨rest, middle, hdivides, hagain, hseparatorHtml⟩, ?_, ?_⟩,
      hkeyTrim, hvalueTrim⟩
    · exact (selfContained_render_iff hfrontFits).mp (hkeyTrim ▸ hkey)
    · exact (selfContained_render_iff hbackFits).mp (hvalueTrim ▸ hvalue)
  · rintro ⟨front, back, ⟨⟨rest, middle, hdivides, hagain, rfl⟩, hfront, hback⟩, hkey, hvalue⟩
    obtain ⟨hfrontFits, hrestFits⟩ := hdivides.fits hn
    obtain ⟨hmiddleFits, hbackFits⟩ := hagain.fits hrestFits
    obtain ⟨_, pieces, hpieces, -⟩ := whole_render (w := item) hmiddleFits rfl
    rw [hkey, hvalue, selfContained_render_iff hfrontFits, selfContained_render_iff hbackFits]
    exact ⟨hfront, hback, by rw [Html.pieces?_eq_some_iff.mpr hpieces]; rfl⟩

theorem exists_halves_of_pair? {item : Item} (h : item.pair? separator = some a) :
    ∃ key value, item.html = key ++ separator ++ value ∧
      a.matchKey = some (Text.trim key) ∧ a.matchValue = some (Text.trim value) := by
  unfold pair? at h
  split at h
  · cases h
  rename_i key value hsplit
  dsimp only at h
  split at h
  · cases h
  obtain rfl := Option.some.inj h
  exact ⟨key, value, (Text.splitOutsideTags_eq_some_iff.mp hsplit).text, rfl, rfl⟩

end Item

namespace AnswerList

variable {separator : Text} {ordered forceMulti : Bool} {answers : List Answer}

theorem pairs?_of_classify {list : AnswerList}
    (h : list.classify forceMulti separator = .ok ⟨.associativeMatching, answers⟩) :
    pairs? separator list.items = some answers := by
  obtain ⟨-, -, ⟨-, found, hfound, hc⟩ | ⟨-, hc⟩ | ⟨item, -, hc⟩ | hchoice⟩ := classify_eq_ok h
  · obtain ⟨-, rfl⟩ := Classification.mk.inj hc
    exact hfound
  · cases (Classification.mk.inj hc).1
  · unfold Item.single at hc
    split at hc <;> cases (Classification.mk.inj hc).1
  · unfold choice at hchoice
    dsimp only at hchoice
    split at hchoice
    · cases hchoice
    · have hkind := congrArg Classification.kind (Except.ok.inj hchoice)
      dsimp only at hkind
      split at hkind <;> cases hkind

/-- When the halves of the pairs in a list can stand on their own. Each item is a line of text. -/
theorem halves_selfContained_iff {lines : List Nesting} (hlines : ∀ n ∈ lines, n.fits .line = true)
    (h : (mk ordered (lines.map fun n => .ofEvents n.events)).classify forceMulti separator =
      .ok ⟨.associativeMatching, answers⟩) :
    List.Forall₂ (fun n a => ∃ key value, a.matchKey = some key ∧ a.matchValue = some value ∧
      ((SelfContained key ∧ SelfContained value ∧ (Html.pieces? separator).isSome = true) ↔
        ∃ front back, n.CutAt separator front back ∧
          key = Text.trim (HtmlWriter.item.render front.events) ∧
          value = Text.trim (HtmlWriter.item.render back.events))) lines answers := by
  have hpairs := List.forall₂_map_left_iff.mp (forall₂_of_pairs? (pairs?_of_classify h))
  refine ((List.forall₂_and_left ..).mpr ⟨hlines, hpairs⟩).imp fun n a ⟨hn, hpair⟩ => ?_
  obtain ⟨key, value, hhtml, hkey, hvalue⟩ := Item.exists_halves_of_pair? hpair
  exact ⟨_, _, hkey, hvalue, Item.halves_iff hn hhtml⟩

theorem halves_selfContained_code :
    let at0 : Span := ⟨0, 0⟩
    let emphasis (inner rest : Nesting) : Nesting := .element .emphasis at0 inner at0 rest
    let lines := [emphasis (.text "HTTP".toList at0 .done) (.text [':', ' '] at0
        (.leaf ⟨.code "80".toList, at0⟩ rfl .done)),
      .text "CoAP: 5683".toList at0 .done]
    let answers := [("<em>HTTP</em>", "<code>80</code>"), ("CoAP", "5683")].map
      fun (key, value) => ({ text := value.toList, matchKey := some key.toList,
                             matchValue := some value.toList } : Answer)
    (∀ n ∈ lines, n.fits .line = true) ∧
      (mk false (lines.map fun n => .ofEvents n.events)).classify false ":".toList =
        .ok ⟨.associativeMatching, answers⟩ ∧
      SelfContained "<em>HTTP</em>".toList ∧ SelfContained "<code>80</code>".toList := by
  intro at0 emphasis lines answers
  have hlines : ∀ n ∈ lines, n.fits .line = true := by decide
  have hclassify : (mk false (lines.map fun n => .ofEvents n.events)).classify false ":".toList =
      .ok ⟨.associativeMatching, answers⟩ := rfl
  refine ⟨hlines, hclassify, ?_⟩
  obtain ⟨key, value, hkey, hvalue, hiff⟩ :=
    (List.forall₂_cons.mp (halves_selfContained_iff hlines hclassify)).1
  obtain rfl := Option.some.inj hkey
  obtain rfl := Option.some.inj hvalue
  -- the cut is in the text behind the emphasis, between its two characters
  have hcut : Nesting.CutAt ":".toList _ (emphasis (.text "HTTP".toList at0 .done) .done)
      (.text [' '] at0 (.leaf ⟨.code "80".toList, at0⟩ rfl .done)) :=
    ⟨⟨_, .text [':'] at0 .done, .element (.here _), @Divides.text [':'] [' '] _ _, rfl⟩,
      .inl ⟨'H', by decide, by decide⟩, .inl ⟨'8', by decide, by decide⟩⟩
  obtain ⟨hfront, hback, -⟩ := hiff.mpr ⟨_, _, hcut, rfl, rfl⟩
  exact ⟨hfront, hback⟩

/-- A separator in strong text is outside tags, and the element is torn apart. -/
theorem halves_torn :
    let at0 : Span := ⟨0, 0⟩
    let lines : List Nesting := [.element .strong at0 (.text "a: b".toList at0 .done) at0
        (.text ": c".toList at0 .done),
      .text "d: e".toList at0 .done]
    (∀ n ∈ lines, n.fits .line = true) ∧
      (∃ second, (mk false (lines.map fun n => .ofEvents n.events)).classify false ":".toList =
        .ok ⟨.associativeMatching,
          [{ text := "b</strong>: c".toList, matchKey := some "<strong>a".toList,
             matchValue := some "b</strong>: c".toList }, second]⟩) ∧
      ¬ SelfContained "<strong>a".toList ∧ ¬ SelfContained "b</strong>: c".toList := by
  exact ⟨by decide, ⟨_, rfl⟩, by decide, by decide⟩

-- A link without a text is a half, and nothing of it is to be seen.
example :
    let at0 : Span := ⟨0, 0⟩
    let n : Nesting := .text "a:".toList at0 (.element (.link [] []) at0 .done at0 .done)
    (Item.ofEvents n.events).pair? ":".toList = some
        { text := "<a href=\"\"></a>".toList, matchKey := some "a".toList,
          matchValue := some "<a href=\"\"></a>".toList } ∧
      ¬ SelfContained "<a href=\"\"></a>".toList :=
  ⟨rfl, by decide⟩

end AnswerList
end Quizdown
