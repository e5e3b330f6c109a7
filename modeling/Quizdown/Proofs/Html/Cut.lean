import Quizdown.Proofs.Html.Pieces
import Quizdown.Proofs.Html.Place
import Quizdown.Proofs.Text.Escape

/-! Where the HTML of a line of text can be cut so that both parts are fragments of their own:
between the events that stand in the line itself, and between the characters of its text. Inside a
tag, a reference or an element every cut leaves something open. -/
set_option autoImplicit false

namespace Quizdown
namespace Html

variable {opened between behind : Texts} {ts us : List Tag} {s t front rest w : Text}
  {pieces ps : List Piece} {p : Position}

theorem exists_nest_of_append (h : nest opened (ts ++ us) = some behind) :
    ∃ between, nest opened ts = some between ∧ nest between us = some behind := by
  induction ts generalizing opened with
  | nil => exact ⟨opened, rfl, h⟩
  | cons t ts ih =>
    rw [List.cons_append, nest] at h
    rw [nest]
    cases ht : t.nest opened with
    | none =>
      rw [ht] at h
      cases h
    | some next =>
      rw [ht] at h
      exact ih h

theorem Tag.nest_outer {tag : Tag} (h : tag.nest opened = some behind) (outer : Texts) :
    tag.nest (opened ++ outer) = some (behind ++ outer) := by
  cases tag with
  | start name attributes =>
    obtain ⟨hvoid, heq⟩ := Option.ite_none_left_eq_some.mp h
    obtain rfl := Option.some.inj heq
    exact if_neg hvoid
  | empty name attributes =>
    obtain ⟨hvoid, heq⟩ := Option.ite_none_right_eq_some.mp h
    obtain rfl := Option.some.inj heq
    exact if_pos hvoid
  | stop name =>
    cases opened with
    | nil => cases h
    | cons innermost opened =>
      obtain ⟨hname, heq⟩ := Option.ite_none_right_eq_some.mp h
      obtain rfl := Option.some.inj heq
      exact if_pos hname

theorem nest_outer (h : nest opened ts = some behind) (outer : Texts) :
    nest (opened ++ outer) ts = some (behind ++ outer) := by
  induction ts generalizing opened with
  | nil =>
    obtain rfl := Option.some.inj h
    rfl
  | cons t ts ih =>
    rw [nest] at h ⊢
    cases ht : t.nest opened with
    | none =>
      rw [ht] at h
      cases h
    | some next =>
      rw [ht] at h
      rw [Tag.nest_outer ht]
      exact ih h

theorem nest_start_ne_nil {name : Text} {attributes : List Attribute} (hvoid : isVoid name = false)
    (h : nest [] ts = some opened) : nest [] (.start name attributes :: ts) ≠ some [] := by
  have hname : (Tag.start name attributes).nest [] = some [name] :=
    if_neg (Bool.eq_false_iff.mp hvoid)
  have hwhole : nest [name] ts = some (opened ++ [name]) := nest_outer h [name]
  rw [nest, hname]
  simp [hwhole]

theorem Reads.drop (hs : Reads s ps) (h : Reads (s ++ t) pieces) :
    ∃ more, Reads t more ∧ pieces = ps ++ more := by
  obtain ⟨between, first, more, hfirst, hmore, rfl⟩ := read_append_eq_some h
  unfold Reads at hs
  rw [hs] at hfirst
  obtain ⟨rfl, rfl⟩ := Prod.mk.inj (Option.some.inj hfirst)
  exact ⟨more, hmore, rfl⟩

theorem Reads.unique (hs : Reads s ps) (h : Reads s pieces) : pieces = ps :=
  (Prod.mk.inj (Option.some.inj (h.symm.trans hs))).2

theorem exists_of_cut {c d : Char} (h : c :: w ++ [d] = front ++ rest) (hfront : front ≠ [])
    (hrest : rest ≠ []) : ∃ u, front = c :: u ∧ u <+: w := by
  obtain ⟨e, u, rfl⟩ := List.exists_cons_of_ne_nil hfront
  obtain ⟨rfl, htail⟩ := List.cons.inj h
  refine ⟨u, rfl, ?_⟩
  rcases List.append_eq_append_iff.mp htail with ⟨x, rfl, hx⟩ | ⟨x, rfl, -⟩
  · rcases List.singleton_eq_append_iff.mp hx with ⟨rfl, -⟩ | ⟨-, hnil⟩
    · rw [List.append_nil]
    · exact absurd hnil hrest
  · exact List.prefix_append u x

theorem not_reads_of_tag (hw : ∀ c ∈ w, c ≠ '<' ∧ c ≠ '>')
    (h : '<' :: w ++ ['>'] = front ++ rest) (hfront : front ≠ []) (hrest : rest ≠ []) :
    ¬ Reads front pieces := by
  obtain ⟨u, rfl, hu⟩ := exists_of_cut h hfront hrest
  have hopen : read .text (['<'] ++ u) = some (.tag (u.reverse ++ []), []) := by
    have hmark : read .text ['<'] = some (.tag [], []) := rfl
    rw [read_append, hmark, Option.bind_some, read_tag fun c hc => hw c (hu.subset hc)]
    rfl
  intro hread
  cases hopen.symm.trans hread

theorem exists_reference_of_read {name : Text} (hs : ';' ∉ s)
    (h : read (.reference name) s = some (p, pieces)) : ∃ name, p = .reference name := by
  induction s generalizing name pieces with
  | nil => exact ⟨name, (read_nil_eq_some h).1⟩
  | cons c s ih =>
    simp only [List.mem_cons, not_or] at hs
    obtain ⟨next, first, more, htakes, hread, -⟩ := read_cons_eq_some h
    cases htakes with
    | refer => exact absurd rfl hs.1
    | name named => exact ih hs.2 hread

theorem not_reads_of_reference {name : Text} (hname : ';' ∉ name)
    (h : '&' :: name ++ [';'] = front ++ rest) (hfront : front ≠ []) (hrest : rest ≠ []) :
    ¬ Reads front pieces := by
  obtain ⟨u, rfl, hu⟩ := exists_of_cut h hfront hrest
  have hmark : read .text ['&'] = some (.reference [], []) := rfl
  intro hread
  obtain ⟨between, first, more, hfirst, hmore, -⟩ :=
    @read_append_eq_some .text .text ['&'] u _ hread
  rw [hmark] at hfirst
  obtain ⟨rfl, -⟩ := Prod.mk.inj (Option.some.inj hfirst)
  obtain ⟨_, hposition⟩ := exists_reference_of_read (fun hmem => hname (hu.subset hmem)) hmore
  cases hposition

/-- Escaped text that is cut between whole pieces is cut between two characters of the text. -/
theorem split_escapeText (h : escapeText s = front ++ rest) (hread : Reads front pieces) :
    ∃ x y, s = x ++ y ∧ front = escapeText x ∧ rest = escapeText y := by
  induction s generalizing front pieces with
  | nil =>
    obtain ⟨rfl, rfl⟩ := List.append_eq_nil_iff.mp h.symm
    exact ⟨[], [], rfl, rfl, rfl⟩
  | cons c s ih =>
    rw [escapeText_cons] at h
    have hchar : Reads (escapeText [c]) [.char c] := reads_escapeText [c]
    rcases List.append_eq_append_iff.mp h with ⟨more, rfl, hmore⟩ | ⟨part, hpart, rfl⟩
    · obtain ⟨qs, hqs, -⟩ := hchar.drop hread
      obtain ⟨x, y, rfl, rfl, rfl⟩ := ih hmore hqs
      exact ⟨c :: x, y, rfl, (escapeText_cons c x).symm, rfl⟩
    · by_cases hfront : front = []
      · subst hfront
        exact ⟨[], c :: s, rfl, rfl, by rw [escapeText_cons, hpart]; rfl⟩
      by_cases hempty : part = []
      · subst hempty
        exact ⟨[c], s, rfl, by rw [hpart, List.append_nil], rfl⟩
      cases hmarkup : isMarkup c with
      | false =>
        rw [escapeText_char hmarkup] at hpart
        rcases List.singleton_eq_append_iff.mp hpart with ⟨hnil, -⟩ | ⟨-, hnil⟩
        · exact absurd hnil hfront
        · exact absurd hnil hempty
      | true =>
        -- a cut within a reference leaves a part of it in front, which is not read
        have hcases : c = '<' ∨ c = '>' ∨ c = '&' := by simpa [isMarkup, or_assoc] using hmarkup
        have hreference : ∃ name, escapeText [c] = '&' :: name ++ [';'] ∧ ';' ∉ name := by
          rcases hcases with rfl | rfl | rfl
          · exact ⟨"lt".toList, rfl, by decide⟩
          · exact ⟨"gt".toList, rfl, by decide⟩
          · exact ⟨"amp".toList, rfl, by decide⟩
        obtain ⟨name, hname, hend⟩ := hreference
        exact absurd hread (not_reads_of_reference hend (hname ▸ hpart) hfront hempty)

/-- The text is a fragment of its own: it reads as whole pieces and closes what it opens. -/
def Whole (s : Text) : Prop := ∃ running, Fragment [] s [] running

theorem whole_nil : Whole [] := ⟨[], .nil⟩

theorem Whole.append (hs : Whole s) (ht : Whole t) : Whole (s ++ t) := by
  obtain ⟨x, hx⟩ := hs
  obtain ⟨y, hy⟩ := ht
  exact ⟨x ++ y, hx.append hy⟩

theorem Whole.drop (hs : Whole s) (h : Whole (s ++ t)) : Whole t := by
  obtain ⟨_, ps, hps, hfirst, -⟩ := hs
  obtain ⟨_, pieces, hpieces, hall, -⟩ := h
  obtain ⟨more, hmore, rfl⟩ := hps.drop hpieces
  rw [tags_append] at hall
  obtain ⟨between, hbetween, hrest⟩ := exists_nest_of_append hall
  rw [hfirst] at hbetween
  obtain rfl := Option.some.inj hbetween
  exact ⟨shown more, more, hmore, hrest, rfl⟩

theorem Whole.take (hs : Reads s ps) (ht : Whole t) (h : Whole (s ++ t)) : Whole s := by
  obtain ⟨_, qs, hqs, hlast, -⟩ := ht
  obtain ⟨_, pieces, hpieces, hall, -⟩ := h
  obtain ⟨more, hmore, rfl⟩ := hs.drop hpieces
  obtain rfl := hqs.unique hmore
  rw [tags_append] at hall
  obtain ⟨opened, hopened, hrest⟩ := exists_nest_of_append hall
  -- what is open in front of the end stays open to it
  rw [← List.nil_append opened, nest_outer hlast opened, List.nil_append] at hrest
  obtain rfl := Option.some.inj hrest
  exact ⟨shown ps, ps, hs, hopened, rfl⟩

/-- The text cannot be cut: no proper part in front of it is a fragment of its own. -/
def Indivisible (s : Text) : Prop :=
  ∀ front rest, s = front ++ rest → front ≠ [] → rest ≠ [] → ¬ Whole front

theorem indivisible_short (h : s.length ≤ 1) : Indivisible s := by
  rintro front rest rfl hfront hrest
  have hpos := List.length_pos_iff.mpr hfront
  have hpos' := List.length_pos_iff.mpr hrest
  rw [List.length_append] at h
  omega

theorem indivisible_tag (hw : ∀ c ∈ w, c ≠ '<' ∧ c ≠ '>') : Indivisible ('<' :: w ++ ['>']) := by
  rintro front rest h hfront hrest ⟨_, pieces, hread, -⟩
  exact not_reads_of_tag hw h hfront hrest hread

theorem indivisible_element {v inner name : Text} {attributes : List Attribute}
    (hw : ∀ c ∈ w, c ≠ '<' ∧ c ≠ '>') (hv : ∀ c ∈ v, c ≠ '<' ∧ c ≠ '>')
    (hstart : Reads ('<' :: w ++ ['>']) [.tag (.start name attributes)]) (hinner : Whole inner)
    (hvoid : isVoid name = false) :
    Indivisible ('<' :: w ++ ['>'] ++ inner ++ ('<' :: v ++ ['>'])) := by
  rintro front rest h hfront hrest ⟨_, pieces, hread, hclosed, -⟩
  obtain ⟨_, ps, hps, hnest, -⟩ := hinner
  -- whatever is read of the content, the element is still open behind it
  have hinside (qs : List Piece) (opened : Texts) (hopened : nest [] (tags qs) = some opened) :
      nest [] (tags ([.tag (.start name attributes)] ++ qs)) ≠ some [] :=
    nest_start_ne_nil hvoid hopened
  rw [List.append_assoc] at h
  rcases List.append_eq_append_iff.mp h with ⟨y, rfl, hy⟩ | ⟨x, hx, -⟩
  · obtain ⟨qs, hqs, rfl⟩ := hstart.drop hread
    rcases List.append_eq_append_iff.mp hy with ⟨z, rfl, hz⟩ | ⟨z, rfl, -⟩
    · obtain ⟨last, hlast, rfl⟩ := hps.drop hqs
      by_cases hempty : z = []
      · subst hempty
        obtain rfl := reads_nil.unique hlast
        exact hinside _ [] (by rw [List.append_nil, hnest]) hclosed
      · exact not_reads_of_tag hv hz hempty hrest hlast
    · obtain ⟨last, -, rfl⟩ := hqs.drop hps
      rw [tags_append] at hnest
      obtain ⟨opened, hopened, -⟩ := exists_nest_of_append hnest
      exact hinside qs opened hopened hclosed
  · by_cases hempty : x = []
    · rw [hempty, List.append_nil] at hx
      rw [hx] at hstart
      obtain rfl := hstart.unique hread
      exact hinside [] [] rfl hclosed
    · exact not_reads_of_tag hw hx hfront hempty hread

/-- A cut through a text that begins with something indivisible is in front of that or behind it. -/
theorem Indivisible.cut (hs : Indivisible s) (hwhole : Whole s) (h : s ++ t = front ++ rest)
    (hfront : Whole front) :
    front = [] ∨ ∃ more, front = s ++ more ∧ t = more ++ rest ∧ Whole more := by
  rcases List.append_eq_append_iff.mp h with ⟨more, rfl, rfl⟩ | ⟨part, hpart, rfl⟩
  · exact .inr ⟨more, rfl, rfl, hwhole.drop hfront⟩
  · by_cases hempty : front = []
    · exact .inl hempty
    · by_cases hnil : part = []
      · rw [hnil, List.append_nil] at hpart
        exact .inr ⟨[], by rw [hpart, List.append_nil], by rw [hnil]; rfl, whole_nil⟩
      · exact absurd hfront (hs front part hpart hempty hnil)

end Html

open Html (Reads Whole Indivisible)

def Nesting.text (s : Text) (span : Span) (rest : Nesting) : Nesting :=
  .leaf ⟨.text s, span⟩ rfl rest

/-- A line of text as what is in front of a cut and what is behind it. The cut is between two events
that stand in the line itself, or between two characters of its text. -/
inductive Divides : Nesting → Nesting → Nesting → Prop
  | here (n : Nesting) : Divides n .done n
  | leaf {e : PlacedEvent} {alone : e.event.standsAlone = true} {rest front back : Nesting}
      (h : Divides rest front back) : Divides (.leaf e alone rest) (.leaf e alone front) back
  | element {tag : Tag} {span stop : Span} {inner rest front back : Nesting}
      (h : Divides rest front back) :
      Divides (.element tag span inner stop rest) (.element tag span inner stop front) back
  | text {x y : Text} {span : Span} {rest : Nesting} :
      Divides (.text (x ++ y) span rest) (.text x span .done) (.text y span rest)

namespace Divides

variable {n front back : Nesting} {w : HtmlWriter}

theorem fits (h : Divides n front back) (hn : n.fits .line = true) :
    front.fits .line = true ∧ back.fits .line = true := by
  induction h with
  | here n => exact ⟨rfl, hn⟩
  | leaf _ ih =>
    obtain ⟨hadmits, hrest⟩ := Bool.and_eq_true_iff.mp hn
    exact ⟨Bool.and_eq_true_iff.mpr ⟨hadmits, (ih hrest).1⟩, (ih hrest).2⟩
  | @element tag span stop inner rest front back _ ih =>
    rw [Nesting.fits] at hn ⊢
    cases hinside : Surroundings.line.inside? tag with
    | none =>
      rw [hinside] at hn
      cases hn
    | some inside =>
      rw [hinside] at hn
      obtain ⟨hinner, hrest⟩ := Bool.and_eq_true_iff.mp hn
      exact ⟨Bool.and_eq_true_iff.mpr ⟨hinner, (ih hrest).1⟩, (ih hrest).2⟩
  | text => exact ⟨rfl, hn⟩

end Divides

theorem Nesting.fits_line_element {tag : Tag} {span stop : Span} {inner rest : Nesting}
    (h : (element tag span inner stop rest).fits .line = true) :
    tag.isInline = true ∧ inner.fits .line = true ∧ rest.fits .line = true := by
  rw [fits, Surroundings.inside?] at h
  cases htag : tag.isInline with
  | false => simp [htag] at h
  | true =>
    rw [htag] at h
    exact ⟨rfl, Bool.and_eq_true_iff.mp h⟩

namespace HtmlWriter

variable {w : HtmlWriter} {tag : Tag} {n inner : Nesting}

open Html (isName isVoid)

theorem afterStart_inline (htag : tag.isInline = true)
    (himage : ∀ url title, tag ≠ .image url title) : w.afterStart tag = w := by
  cases tag with
  | image url title => exact absurd rfl (himage url title)
  | emphasis | strong | strikethrough | superscript | subscript | link => rfl
  | _ => cases htag

theorem afterStop_inline (htag : tag.isInline = true) : w.afterStop tag.closing = w := by
  cases tag with
  | emphasis | strong | strikethrough | superscript | subscript | link | image => rfl
  | _ => cases htag

theorem run_line (hn : n.fits .line = true) (himages : w.images = 0) : w.run n.events = w := by
  induction n with
  | done => rfl
  | leaf e alone rest ih =>
    rw [Nesting.events_leaf, run, List.foldl_cons, next_leaf alone]
    exact ih (Bool.and_eq_true_iff.mp hn).2
  | element tag span inner stop rest ihInner ihRest =>
    obtain ⟨htag, hinner, hrest⟩ := Nesting.fits_line_element hn
    rw [Nesting.events_element]
    rcases tag.image_or with ⟨url, title, rfl⟩ | hno
    · rw [Tag.closing, run_image url title inner _ himages]
      exact ihRest hrest
    · have hstop : (w.run (inner.events ++ .stop tag.closing :: rest.events)) = w := by
        rw [run_append, ihInner hinner, run, List.foldl_cons, next_stop himages,
          afterStop_inline htag]
        exact ihRest hrest
      rw [run, List.foldl_cons, next_start himages, afterStart_inline htag hno]
      exact hstop

theorem render_inline (htag : tag.isInline = true) (himage : ∀ url title, tag ≠ .image url title)
    (hinner : inner.fits .line = true) (himages : w.images = 0) (span stop : Span)
    (rest : Nesting) : w.render (Nesting.element tag span inner stop rest).events =
      w.opening tag ++ w.render inner.events ++ w.closing tag.closing ++ w.render rest.events := by
  rw [Nesting.events_element, render, emit_start himages, next_start himages,
    afterStart_inline htag himage, render_append, run_line hinner himages, render,
    emit_stop himages, next_stop himages, afterStop_inline htag]
  simp only [List.append_assoc]

structure WrittenAs (w : HtmlWriter) (tag : Tag) (name : Text) (attributes : List (Text × Text)) :
    Prop where
  isName : isName name = true
  notVoid : isVoid name = false
  named : ∀ a ∈ attributes, Html.isName a.1 = true
  opening : w.opening tag = '<' :: (name ++ attributes.flatMap Element.attributeText) ++ ['>']
  closing : w.closing tag.closing = '<' :: ('/' :: name) ++ ['>']

theorem exists_writtenAs (w : HtmlWriter) (htag : tag.isInline = true)
    (himage : ∀ url title, tag ≠ .image url title) :
    ∃ name attributes, WrittenAs w tag name attributes := by
  have hplain (name : Text) (hname : isName name = true) (hvoid : isVoid name = false)
      (hopening : w.opening tag = '<' :: name ++ ['>'])
      (hclosing : w.closing tag.closing = '<' :: ('/' :: name) ++ ['>']) :
      WrittenAs w tag name [] :=
    ⟨hname, hvoid, List.forall_mem_nil _, by simpa using hopening, hclosing⟩
  cases tag with
  | emphasis => exact ⟨_, _, hplain "em".toList (by decide) (by decide) rfl rfl⟩
  | strong => exact ⟨_, _, hplain "strong".toList (by decide) (by decide) rfl rfl⟩
  | strikethrough => exact ⟨_, _, hplain "s".toList (by decide) (by decide) rfl rfl⟩
  | superscript => exact ⟨_, _, hplain "sup".toList (by decide) (by decide) rfl rfl⟩
  | subscript => exact ⟨_, _, hplain "sub".toList (by decide) (by decide) rfl rfl⟩
  | link url title =>
    refine ⟨"a".toList, targetAttributes "href".toList url title, by decide, by decide,
      isName_targetAttributes (by decide) url title, ?_, rfl⟩
    rw [← target_eq]
    rfl
  | image url title => exact absurd rfl (himage url title)
  | _ => cases htag

theorem whole_render (hn : n.fits .line = true) (himages : w.images = 0) :
    Whole (w.render n.events) :=
  ⟨n.shown, (fragment_nesting n hn himages (.inr (.inl rfl)) []).1⟩

theorem indivisible_inline (htag : tag.isInline = true) (hinner : inner.fits .line = true)
    (himages : w.images = 0) (span stop : Span) :
    Indivisible (w.render (Nesting.element tag span inner stop .done).events) := by
  rcases tag.image_or with ⟨url, title, rfl⟩ | hno
  · rw [Nesting.events_element, Tag.closing, render_image url title inner _ himages]
    change Indivisible (_ ++ [])
    rw [List.append_nil]
    have hend : ∀ c ∈ [' ', '/'], c ≠ '<' ∧ c ≠ '>' := by simp
    exact Html.indivisible_tag (List.forall_mem_append.mpr
      ⟨Html.not_angle_of_isName (by decide), List.forall_mem_append.mpr
        ⟨Html.not_angle_of_attributes (isName_imageAttributes url title inner), hend⟩⟩)
  · obtain ⟨name, attributes, h⟩ := exists_writtenAs w htag hno
    have hwhole : Whole (w.render inner.events) := whole_render hinner himages
    rw [render_inline htag hno hinner himages, h.opening, h.closing]
    change Indivisible (_ ++ [])
    rw [List.append_nil]
    have hname := Html.not_angle_of_isName h.isName
    exact Html.indivisible_element
      (List.forall_mem_append.mpr ⟨hname, Html.not_angle_of_attributes h.named⟩)
      (List.forall_mem_cons.mpr ⟨by decide, hname⟩)
      (Html.reads_start h.isName h.named) hwhole h.notVoid

theorem whole_leaf {e : Event} (halone : e.standsAlone = true)
    (hadmits : Surroundings.line.admits e = true) : Whole (item.emit e) := by
  obtain ⟨hraw, -⟩ := Bool.and_eq_true_iff.mp hadmits
  exact ⟨e.shown, fragment_leaf halone (by simpa using hraw) rfl⟩

theorem indivisible_leaf {e : Event} (halone : e.standsAlone = true)
    (hadmits : Surroundings.line.admits e = true) (htext : ∀ s, e ≠ .text s) :
    Indivisible (item.emit e) := by
  cases e with
  | start tag => cases halone
  | stop tag => cases halone
  | text s => exact absurd rfl (htext s)
  | code s =>
    have hstart : Reads "<code>".toList [.tag (.start "code".toList [])] := rfl
    have hname : ∀ c ∈ "code".toList, c ≠ '<' ∧ c ≠ '>' := Html.not_angle_of_isName (by decide)
    exact Html.indivisible_element hname (List.forall_mem_cons.mpr ⟨by decide, hname⟩) hstart
      ⟨s, .text s⟩ (by decide)
  | softBreak => exact Html.indivisible_short (by decide)
  | hardBreak => exact Html.indivisible_tag (w := "br /".toList) (by simp)
  | html s | inlineHtml s | rule => cases hadmits
  | footnoteReference s | inlineMath s | displayMath s | taskMarker checked =>
    exact Html.indivisible_short (Nat.zero_le 1)

end HtmlWriter

theorem Nesting.fits_line_single {tag : Tag} {inner : Nesting} (htag : tag.isInline = true)
    (hinner : inner.fits .line = true) (span stop : Span) :
    (element tag span inner stop .done).fits .line = true := by
  simp [fits, Surroundings.inside?, htag, hinner, Surroundings.behind]

theorem Nesting.events_element_append (tag : Tag) (span stop : Span) (inner rest : Nesting) :
    (element tag span inner stop rest).events =
      (element tag span inner stop .done).events ++ rest.events := by
  simp [events, placed]

section Line

open HtmlWriter

variable {n : Nesting}

theorem render_line_leaf {e : PlacedEvent} (alone : e.event.standsAlone = true) (rest : Nesting) :
    item.render (Nesting.leaf e alone rest).events =
      item.emit e.event ++ item.render rest.events := by
  rw [Nesting.events_leaf, render, next_leaf alone]

theorem render_line_text (s : Text) (span : Span) (rest : Nesting) :
    item.render (Nesting.text s span rest).events = escapeText s ++ item.render rest.events :=
  @render_line_leaf ⟨.text s, span⟩ rfl rest

theorem render_line_element {tag : Tag} {inner : Nesting} (htag : tag.isInline = true)
    (hinner : inner.fits .line = true) (span stop : Span) (rest : Nesting) :
    item.render (Nesting.element tag span inner stop rest).events =
      item.render (Nesting.element tag span inner stop .done).events ++
        item.render rest.events := by
  rw [Nesting.events_element_append, render_append,
    run_line (Nesting.fits_line_single htag hinner span stop) rfl]

theorem Divides.render {front back : Nesting} (h : Divides n front back)
    (hn : n.fits .line = true) :
    item.render n.events = item.render front.events ++ item.render back.events := by
  induction h with
  | here n => rfl
  | leaf _ ih =>
    rw [render_line_leaf, render_line_leaf, ih (Bool.and_eq_true_iff.mp hn).2, List.append_assoc]
  | @element tag span stop inner rest front back _ ih =>
    obtain ⟨htag, hinner, hrest⟩ := Nesting.fits_line_element hn
    rw [render_line_element htag hinner span stop rest,
      render_line_element htag hinner span stop front, ih hrest, List.append_assoc]
  | @text x y span rest =>
    have hdone : item.render Nesting.done.events = [] := rfl
    rw [render_line_text, render_line_text, render_line_text, hdone, escapeText_append,
      List.append_nil, List.append_assoc]

/-- Where a line is cut into two fragments, it is cut between its events or within its text. -/
theorem exists_divides (hn : n.fits .line = true) {front rest : Text}
    (h : item.render n.events = front ++ rest) (hfront : Whole front) :
    ∃ before behind, Divides n before behind ∧ item.render before.events = front ∧
      item.render behind.events = rest := by
  induction n generalizing front with
  | done =>
    obtain ⟨rfl, rfl⟩ := List.append_eq_nil_iff.mp h.symm
    exact ⟨.done, .done, .here _, rfl, rfl⟩
  | leaf e alone more ih =>
    obtain ⟨hadmits, hmore⟩ := Bool.and_eq_true_iff.mp hn
    -- a cut behind the event is a cut through the rest of the line
    have hbehind (after : Text) (hafter : item.render more.events = after ++ rest)
        (hfragment : Whole after) (hcut : front = item.emit e.event ++ after) :
        ∃ before behind, Divides (.leaf e alone more) before behind ∧
          item.render before.events = front ∧ item.render behind.events = rest := by
      obtain ⟨before, behind, hdivides, rfl, rfl⟩ := ih hmore hafter hfragment
      exact ⟨.leaf e alone before, behind, .leaf hdivides, by rw [render_line_leaf, hcut], rfl⟩
    have hline := h
    rw [render_line_leaf] at hline
    by_cases htext : ∃ s, e.event = .text s
    · obtain ⟨s, hs⟩ := htext
      obtain ⟨event, span⟩ := e
      subst hs
      rcases List.append_eq_append_iff.mp hline with ⟨after, hcut, hafter⟩ | ⟨part, hpart, hrest⟩
      · exact hbehind after hafter (Whole.drop ⟨s, .text s⟩ (hcut ▸ hfront)) hcut
      · obtain ⟨_, pieces, hread, -⟩ := hfront
        obtain ⟨x, y, rfl, rfl, rfl⟩ := Html.split_escapeText hpart hread
        refine ⟨.text x span .done, .text y span more, .text, ?_, ?_⟩
        · rw [render_line_text]
          exact List.append_nil _
        · rw [render_line_text, hrest]
    · have hindivisible := indivisible_leaf alone hadmits fun s hs => htext ⟨s, hs⟩
      rcases hindivisible.cut (whole_leaf alone hadmits) hline hfront with
        rfl | ⟨after, hcut, hafter, hfragment⟩
      · exact ⟨.done, _, .here _, rfl, h⟩
      · exact hbehind after hafter hfragment hcut
  | element tag span inner stop more ihInner ihMore =>
    obtain ⟨htag, hinner, hmore⟩ := Nesting.fits_line_element hn
    have hline := h
    rw [render_line_element htag hinner] at hline
    have hsingle := whole_render (w := item) (Nesting.fits_line_single htag hinner span stop) rfl
    rcases (indivisible_inline htag hinner rfl span stop).cut hsingle hline hfront with
      rfl | ⟨after, rfl, hafter, hfragment⟩
    · exact ⟨.done, _, .here _, rfl, h⟩
    · obtain ⟨before, behind, hdivides, rfl, rfl⟩ := ihMore hmore hafter hfragment
      exact ⟨.element tag span inner stop before, behind, .element hdivides,
        render_line_element htag hinner span stop before, rfl⟩

theorem exists_divides_around (hn : n.fits .line = true) {front between rest : Text}
    {pieces : List Html.Piece} (h : item.render n.events = front ++ (between ++ rest))
    (hfront : Whole front) (hbetween : Reads between pieces) (hrest : Whole rest) :
    ∃ before behind middle last, Divides n before behind ∧ Divides behind middle last ∧
      item.render before.events = front ∧ item.render middle.events = between ∧
        item.render last.events = rest := by
  have hwhole : Whole (front ++ (between ++ rest)) := h ▸ whole_render hn rfl
  have hmiddle : Whole between := .take hbetween hrest (hfront.drop hwhole)
  obtain ⟨before, behind, hdivides, hbefore, hbehind⟩ := exists_divides hn h hfront
  obtain ⟨middle, last, hagain, hseparated, hlast⟩ :=
    exists_divides (hdivides.fits hn).2 hbehind hmiddle
  exact ⟨before, behind, middle, last, hdivides, hagain, hbefore, hseparated, hlast⟩

end Line
end Quizdown
