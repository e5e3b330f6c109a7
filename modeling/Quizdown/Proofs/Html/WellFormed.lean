import Quizdown.Proofs.Document.Nesting
import Quizdown.Proofs.Html.Elements

/-! The HTML of well-nested events is well formed, as long as they bring no raw HTML and tables have
the parts of tables. Between its start and its end an element is written in one state, up to what
later cells and paragraphs need to know; inside an image everything becomes its alternative text. -/
set_option autoImplicit false

namespace Quizdown

namespace Event

def isRaw : Event → Bool
  | .html _ | .inlineHtml _ => true
  | _ => false

def shown : Event → Text
  | .text s | .code s => s
  | .softBreak => ['\n']
  | _ => []

def alt : Event → Text
  | .text s | .code s => s
  | .softBreak | .hardBreak => [' ']
  | _ => []

end Event

def Tag.isInline : Tag → Bool
  | emphasis | strong | strikethrough | superscript | subscript | link _ _ | image _ _ => true
  | _ => false

theorem Tag.image_or (tag : Tag) :
    (∃ url title, tag = .image url title) ∨ ∀ url title, tag ≠ .image url title := by
  by_cases himage : ∃ url title, tag = .image url title
  · exact .inl himage
  · exact .inr fun url title h => himage ⟨url, title, h⟩

/-- Where content stands, as far as that decides what may stand there. -/
inductive Surroundings
  | flow
  | table
  | rows
  | cells
  | line
deriving DecidableEq, Repr

namespace Surroundings

def inside? : Surroundings → Tag → Option Surroundings
  | flow, .table _ => some table
  | flow, .tableHead | flow, .tableRow | flow, .tableCell => none
  | flow, _ => some flow
  | table, .tableHead => some cells
  | rows, .tableRow => some cells
  | cells, .tableCell => some line
  | line, tag => if tag.isInline then some line else none
  | _, _ => none

def behind : Surroundings → Surroundings
  | table => rows
  | place => place

def admits : Surroundings → Event → Bool
  | flow, e => !e.isRaw
  | line, e => !e.isRaw && e != .rule
  | _, _ => false

theorem not_raw {place : Surroundings} {e : Event} (h : place.admits e = true) :
    e.isRaw = false := by
  cases place <;> simp_all [admits]

end Surroundings

namespace Nesting

/-- Nothing is raw HTML, a table is a head and rows of cells with text, and the parts of a table
stand nowhere else. -/
def fits : Surroundings → Nesting → Bool
  | place, done => place != .table
  | place, leaf e _ rest => place.admits e.event && rest.fits place
  | place, element tag _ inner _ rest =>
    match place.inside? tag with
    | some inside => inner.fits inside && rest.fits place.behind
    | none => false

def alt : Nesting → Text
  | done => []
  | leaf e _ rest => e.event.alt ++ rest.alt
  | element _ _ inner _ rest => inner.alt ++ rest.alt

def shown : Nesting → Text
  | done => []
  | leaf e _ rest => e.event.shown ++ rest.shown
  | element (.image _ _) _ _ _ rest => rest.shown
  | element _ _ inner _ rest => inner.shown ++ rest.shown

theorem shown_element {tag : Tag} (h : ∀ url title, tag ≠ .image url title) (span stop : Span)
    (inner rest : Nesting) :
    (element tag span inner stop rest).shown = inner.shown ++ rest.shown := by
  cases tag with
  | image url title => exact absurd rfl (h url title)
  | _ => rfl

end Nesting

open Html (Fragment isName)

namespace HtmlWriter

variable {w v : HtmlWriter} {opened : Texts} {tag : Tag} {e : Event}

theorem render_append (w : HtmlWriter) (es fs : List Event) :
    w.render (es ++ fs) = w.render es ++ (w.run es).render fs := by
  induction es generalizing w with
  | nil => rfl
  | cons e es ih =>
    rw [List.cons_append, render, ih, render, List.append_assoc]
    rfl

theorem run_append (w : HtmlWriter) (es fs : List Event) :
    w.run (es ++ fs) = (w.run es).run fs := List.foldl_append

/-! One event outside images. -/

theorem emit_start (h : w.images = 0) : w.emit (.start tag) = w.opening tag :=
  if_neg (not_not.mpr h)

theorem emit_stop {tag : TagEnd} (h : w.images = 0) : w.emit (.stop tag) = w.closing tag :=
  if_neg (not_not.mpr h)

theorem next_start (h : w.images = 0) : w.next (.start tag) = w.afterStart tag := if_pos h

theorem next_stop {tag : TagEnd} (h : w.images = 0) : w.next (.stop tag) = w.afterStop tag :=
  if_pos h

theorem next_leaf (h : e.standsAlone = true) : w.next e = w := by
  cases e with
  | start tag => cases h
  | stop tag => cases h
  | _ => rfl

def checkBoxTag (checked : Bool) : Html.Tag :=
  .empty "input".toList (("type".toList, some "checkbox".toList) ::
    ((if checked then [("checked".toList, none)] else []) ++ [("disabled".toList, none)]))

def leafPieces (w : HtmlWriter) : Event → List Html.Piece
  | .text s => s.map .char
  | .code s => .tag (.start "code".toList []) :: (s.map .char ++ [.tag (.stop "code".toList)])
  | .softBreak => [.char '\n']
  | .hardBreak => [.tag (.empty "br".toList [])]
  | .rule => [.tag (.empty "hr".toList [])]
  | .taskMarker checked => if w.forItem then [] else [.tag (checkBoxTag checked)]
  | _ => []

theorem reads_leaf (halone : e.standsAlone = true) (hraw : e.isRaw = false)
    (himages : w.images = 0) : Html.Reads (w.emit e) (w.leafPieces e) := by
  have hemit : w.emit e = ({ w with images := 0 } : HtmlWriter).emit e := by rw [← himages]
  rw [hemit]
  cases e with
  | start tag => cases halone
  | stop tag => cases halone
  | html s => cases hraw
  | inlineHtml s => cases hraw
  | text s => exact Html.reads_escapeText s
  | code s =>
    have hstart : Html.Reads "<code>".toList [.tag (.start "code".toList [])] := rfl
    have hstop : Html.Reads "</code>".toList [.tag (.stop "code".toList)] := rfl
    exact (hstart.append (Html.reads_escapeText s)).append hstop
  | taskMarker checked =>
    have hbox : Html.Reads (checkBox checked) [.tag (checkBoxTag checked)] := by
      unfold Html.Reads
      cases checked <;> decide +kernel
    change Html.Reads (if w.forItem then [] else checkBox checked) (if w.forItem then [] else _)
    split_ifs
    · rfl
    · exact hbox
  | _ => rfl

theorem fragment_leaf (halone : e.standsAlone = true) (hraw : e.isRaw = false)
    (himages : w.images = 0) : Fragment opened (w.emit e) opened e.shown := by
  refine ⟨_, reads_leaf halone hraw himages, ?_⟩
  cases e with
  | text s => exact ⟨by rw [leafPieces, Html.tags_chars, Html.nest], Html.shown_chars s⟩
  | code s =>
    rw [leafPieces, Html.tags_cons_tag, Html.tags_append, Html.tags_chars, Html.shown_cons_tag,
      Html.shown_append, Html.shown_chars]
    exact ⟨by simp [Html.nest, Html.Tag.nest, Html.isVoid, Html.voidNames, Html.tags,
      Html.Piece.tag?], List.append_nil s⟩
  | taskMarker checked =>
    rw [leafPieces]
    split_ifs <;> exact ⟨rfl, rfl⟩
  | _ => exact ⟨rfl, rfl⟩

/-! Images. -/

theorem emit_inside (himages : w.images ≠ 0) : w.emit e = w.emitAlt e := if_pos himages

theorem emit_alt (halone : e.standsAlone = true) (himages : w.images ≠ 0) :
    w.emit e = escapeValue e.alt := by
  rw [emit_inside himages]
  cases e with
  | start tag => cases halone
  | stop tag => cases halone
  | _ => rfl

def deeper (w : HtmlWriter) : Tag → HtmlWriter
  | .image _ _ => { w with images := w.images + 1 }
  | _ => w

theorem deeper_images (himages : w.images ≠ 0) : (w.deeper tag).images ≠ 0 := by
  cases tag with
  | image url title => exact Nat.succ_ne_zero _
  | _ => exact himages

theorem next_start_inside (himages : w.images ≠ 0) : w.next (.start tag) = w.deeper tag := by
  refine (if_neg himages).trans ?_
  cases tag <;> rfl

theorem next_stop_inside (himages : w.images ≠ 0) :
    (w.deeper tag).next (.stop tag.closing) = w := by
  refine (if_neg (deeper_images himages)).trans ?_
  cases tag <;> rfl

theorem emit_stop_inside (himages : w.images ≠ 0) :
    (w.deeper tag).emit (.stop tag.closing) = [] := by
  rw [emit_inside (deeper_images himages)]
  cases tag with
  | image url title => exact if_neg fun h => himages (Nat.succ.inj h)
  | _ => rfl

theorem render_alt (n : Nesting) (rest : List Event) (himages : w.images ≠ 0) :
    w.render (n.events ++ rest) = escapeValue n.alt ++ w.render rest := by
  have happend (s t : Text) : escapeValue (s ++ t) = escapeValue s ++ escapeValue t :=
    List.flatMap_append
  induction n generalizing w rest with
  | done => rfl
  | leaf e alone more ih =>
    rw [Nesting.events_leaf, List.cons_append, render, emit_alt alone himages, next_leaf alone,
      ih rest himages, Nesting.alt, happend, List.append_assoc]
  | element tag span inner stop more ihInner ihMore =>
    have hstart : w.emit (.start tag) = [] := emit_inside himages
    rw [Nesting.events_element, List.cons_append, render, hstart, next_start_inside himages,
      List.nil_append, List.append_assoc, ihInner _ (deeper_images himages), List.cons_append,
      render, emit_stop_inside himages, next_stop_inside himages, List.nil_append,
      ihMore rest himages, Nesting.alt, happend, List.append_assoc]

theorem run_inside (n : Nesting) (himages : w.images ≠ 0) : w.run n.events = w := by
  induction n generalizing w with
  | done => rfl
  | leaf e alone more ih =>
    rw [Nesting.events_leaf, run, List.foldl_cons, next_leaf alone]
    exact ih himages
  | element tag span inner stop more ihInner ihMore =>
    rw [Nesting.events_element, run, List.foldl_cons, ← run, next_start_inside himages, run_append,
      ihInner (deeper_images himages), run, List.foldl_cons, next_stop_inside himages]
    exact ihMore himages

def imageAttributes (url title : Text) (inner : Nesting) : List (Text × Text) :=
  targetAttributes "src".toList url title ++ [("alt".toList, inner.alt)]

theorem render_image (url title : Text) (inner : Nesting) (rest : List Event)
    (himages : w.images = 0) :
    w.render (.start (.image url title) :: (inner.events ++ .stop .image :: rest)) =
      '<' :: ("img".toList ++
        ((imageAttributes url title inner).flatMap Element.attributeText ++ [' ', '/'])) ++ ['>'] ++
      w.render rest := by
  have hinside : w.next (.start (.image url title)) = { w with images := 1 } := next_start himages
  have hstop : ({ w with images := 1 } : HtmlWriter).emit (.stop .image) = "\" />".toList := rfl
  have hback : ({ w with images := 1 } : HtmlWriter).next (.stop .image) = w :=
    (congrArg (fun k => { w with images := k }) himages).symm
  have hopening : w.opening (.image url title) =
      '<' :: "img".toList ++ target "src".toList url title ++ " alt=\"".toList := rfl
  rw [render, emit_start himages, hinside, render_alt inner _ Nat.one_ne_zero, render, hstop, hback,
    hopening, target_eq, imageAttributes, List.flatMap_append, List.flatMap_singleton,
    Element.attributeText]
  simp

theorem run_image (url title : Text) (inner : Nesting) (rest : List Event)
    (himages : w.images = 0) :
    w.run (.start (.image url title) :: (inner.events ++ .stop .image :: rest)) = w.run rest := by
  have hinside : w.next (.start (.image url title)) = { w with images := 1 } := next_start himages
  have hback : ({ w with images := 1 } : HtmlWriter).next (.stop .image) = w :=
    (congrArg (fun k => { w with images := k }) himages).symm
  rw [run, List.foldl_cons, hinside, ← run, run_append, run_inside inner Nat.one_ne_zero, run,
    List.foldl_cons, hback, ← run]

theorem isName_imageAttributes (url title : Text) (inner : Nesting) :
    ∀ a ∈ imageAttributes url title inner, isName a.1 = true := by
  have halt : isName "alt".toList = true := by decide
  exact List.forall_mem_append.mpr ⟨isName_targetAttributes (by decide) url title,
    List.forall_mem_singleton.mpr halt⟩

theorem reads_image (url title : Text) (inner : Nesting) :
    Html.Reads ('<' :: ("img".toList ++
        ((imageAttributes url title inner).flatMap Element.attributeText ++ [' ', '/'])) ++ ['>'])
      [.tag (.empty "img".toList
        ((imageAttributes url title inner).map fun a => (a.1, some a.2)))] :=
  Html.reads_empty (by decide) (isName_imageAttributes url title inner)

/-! The state around an element. -/

structure Keeps (w v : HtmlWriter) : Prop where
  forItem : v.forItem = w.forItem
  lists : v.lists = w.lists
  images : v.images = w.images
  inTableHead : v.inTableHead = w.inTableHead

theorem Keeps.refl (w : HtmlWriter) : Keeps w w := ⟨rfl, rfl, rfl, rfl⟩

theorem Keeps.trans {u : HtmlWriter} (h : Keeps w v) (h' : Keeps v u) : Keeps w u :=
  ⟨h'.forItem.trans h.forItem, h'.lists.trans h.lists, h'.images.trans h.images,
    h'.inTableHead.trans h.inTableHead⟩

theorem Keeps.bare (h : Keeps w v) : v.bare = w.bare := by
  rw [HtmlWriter.bare, HtmlWriter.bare, h.forItem, h.lists]

theorem afterStart_paragraph : Keeps w (w.afterStart .paragraph) := by
  rw [afterStart]
  split_ifs <;> exact ⟨rfl, rfl, rfl, rfl⟩

theorem afterStart_inTableHead (w : HtmlWriter) (h : tag ≠ .tableHead) :
    (w.afterStart tag).inTableHead = w.inTableHead := by
  cases tag with
  | paragraph => exact afterStart_paragraph.inTableHead
  | tableHead => exact absurd rfl h
  | _ => rfl

theorem afterStart_images (w : HtmlWriter) (h : ∀ url title, tag ≠ .image url title) :
    (w.afterStart tag).images = w.images := by
  cases tag with
  | paragraph => exact afterStart_paragraph.images
  | image url title => exact absurd rfl (h url title)
  | _ => rfl

/-- The end of an element is written for the elements that its start was written for. -/
theorem Keeps.elements (h : Keeps (w.afterStart tag) v) : v.elements tag = w.elements tag := by
  cases tag with
  | paragraph =>
    have hbare := (afterStart_paragraph.trans h).bare
    change (if v.bare then [] else _) = if w.bare then [] else _
    rw [hbare]
  | tableCell =>
    have hhead : v.inTableHead = w.inTableHead := h.inTableHead
    change [v.cellName] = [w.cellName]
    rw [cellName, cellName, hhead]
  | list start => cases start <;> rfl
  | _ => rfl

theorem Keeps.element (h : Keeps (w.afterStart tag) v)
    (hhead : tag = .tableHead → w.inTableHead = false)
    (himage : ∀ url title, tag ≠ .image url title) : Keeps w (v.afterStop tag.closing) := by
  cases tag with
  | paragraph => exact afterStart_paragraph.trans h
  | image url title => exact absurd rfl (himage url title)
  | list start =>
    refine ⟨h.forItem, ?_, h.images, h.inTableHead⟩
    have hlists : v.lists = w.lists + 1 := h.lists
    change v.lists - 1 = w.lists
    omega
  | table columns => exact ⟨h.forItem, h.lists, h.images, h.inTableHead⟩
  | tableHead => exact ⟨h.forItem, h.lists, h.images, (hhead rfl).symm⟩
  | tableRow => exact ⟨h.forItem, h.lists, h.images, h.inTableHead⟩
  | tableCell => exact ⟨h.forItem, h.lists, h.images, h.inTableHead⟩
  | _ => exact h

end HtmlWriter

namespace Surroundings

variable {place inside : Surroundings} {tag : Tag} {w v : HtmlWriter}

def leaves : Surroundings → Texts
  | table => HtmlWriter.bodyOfTable
  | _ => []

theorem leaves_of_fits (h : Nesting.done.fits place = true) : place.leaves = [] := by
  cases place with
  | table => cases h
  | _ => rfl

theorem leaves_behind : place.behind.leaves = [] := by cases place <;> rfl

theorem leaves_inside (h : place.inside? tag = some inside) :
    inside.leaves = HtmlWriter.leftInside tag ∧ place.leaves = HtmlWriter.leftBehind tag := by
  cases place <;> cases tag <;> simp_all [inside?, Tag.isInline] <;> cases h <;> exact ⟨rfl, rfl⟩

/-- A cell is written alike in the head and below it; elsewhere no head is open. -/
def Meets (place : Surroundings) (w : HtmlWriter) : Prop :=
  place = cells ∨ place = line ∨ w.inTableHead = false

theorem Meets.tableHead (hw : place.Meets w) (h : place.inside? .tableHead = some inside) :
    w.inTableHead = false := by
  cases place with
  | table => simpa [Meets] using hw
  | _ => cases h

theorem Meets.afterStart (hw : place.Meets w) (h : place.inside? tag = some inside) :
    inside.Meets (w.afterStart tag) := by
  have hplace : inside = cells ∨ inside = line ∨ (place = flow ∧ tag ≠ .tableHead) := by
    cases place <;> cases tag <;> simp_all [inside?, Tag.isInline]
  rcases hplace with hcells | hline | ⟨rfl, htag⟩
  · exact .inl hcells
  · exact .inr (.inl hline)
  · have hhead : w.inTableHead = false := by simpa [Meets] using hw
    refine .inr (.inr ?_)
    rw [w.afterStart_inTableHead htag, hhead]

theorem Meets.behind (hw : place.Meets w) (h : HtmlWriter.Keeps w v) : place.behind.Meets v := by
  rw [Meets, h.inTableHead]
  cases place <;> simp_all [Meets, Surroundings.behind]

end Surroundings

namespace HtmlWriter

variable {w : HtmlWriter}

theorem fragment_image (url title : Text) (inner : Nesting) (opened : Texts) :
    Fragment opened ('<' :: ("img".toList ++
      ((imageAttributes url title inner).flatMap Element.attributeText ++ [' ', '/'])) ++ ['>'])
      opened [] :=
  ⟨_, reads_image url title inner, rfl, rfl⟩

theorem fragment_element {tag : Tag} (himage : ∀ url title, tag ≠ .image url title)
    {inside : Text} (inner : Nesting) (himages : w.images = 0)
    (hinner : ∀ opened, Fragment opened ((w.afterStart tag).render inner.events)
      (leftInside tag ++ opened) inside)
    (hkeeps : Keeps (w.afterStart tag) ((w.afterStart tag).run inner.events)) (opened : Texts) :
    Fragment opened (w.render (.start tag :: (inner.events ++ [.stop tag.closing])))
      (leftBehind tag ++ opened) inside := by
  have hinsideImages : (w.afterStart tag).images = 0 :=
    (w.afterStart_images himage).trans himages
  have hbehindImages : ((w.afterStart tag).run inner.events).images = 0 :=
    hkeeps.images.trans hinsideImages
  have hclosing := @fragment_closing opened ((w.afterStart tag).run inner.events) tag himage
  rw [hkeeps.elements] at hclosing
  rw [render, emit_start himages, next_start himages, render_append, render,
    emit_stop hbehindImages, render, List.append_nil]
  have hwhole := (fragment_opening w himage).append ((hinner (w.elements tag ++ opened)).append
    hclosing)
  rw [List.nil_append, List.append_nil] at hwhole
  exact hwhole

theorem run_element {tag : Tag} (inner : List Event) (himages : w.images = 0)
    (hinside : ((w.afterStart tag).run inner).images = 0) :
    w.run (.start tag :: (inner ++ [.stop tag.closing])) =
      ((w.afterStart tag).run inner).afterStop tag.closing := by
  rw [run, List.foldl_cons, next_start himages, ← run, run_append]
  exact next_stop hinside

/-- Well-nested content is written as a fragment that closes what it opens, and it leaves the state
as it was. -/
theorem fragment_nesting (n : Nesting) {place : Surroundings} (hn : n.fits place = true)
    (himages : w.images = 0) (hplace : place.Meets w) (opened : Texts) :
    Fragment opened (w.render n.events) (place.leaves ++ opened) n.shown ∧
      Keeps w (w.run n.events) := by
  induction n generalizing place w opened with
  | done =>
    rw [Surroundings.leaves_of_fits hn]
    exact ⟨.nil, .refl w⟩
  | leaf e alone rest ih =>
    obtain ⟨hadmits, hrest⟩ := Bool.and_eq_true_iff.mp hn
    obtain ⟨hfragment, hkeeps⟩ := ih hrest himages hplace opened
    rw [Nesting.events_leaf, render, run, List.foldl_cons, next_leaf alone]
    exact ⟨(fragment_leaf alone (Surroundings.not_raw hadmits) himages).append hfragment, hkeeps⟩
  | element tag span inner stop rest ihInner ihRest =>
    rw [Nesting.fits] at hn
    split at hn
    case h_2 => cases hn
    rename_i inside hinside
    obtain ⟨hinner, hrest⟩ := Bool.and_eq_true_iff.mp hn
    obtain ⟨hleft, hbehind⟩ := Surroundings.leaves_inside hinside
    rw [Nesting.events_element, hbehind]
    -- an image is one tag with all that stands in it; any other element is two around its content
    rcases tag.image_or with ⟨url, title, rfl⟩ | himage
    · obtain ⟨hfragment, hkeeps⟩ := ihRest hrest himages (hplace.behind (.refl w)) opened
      rw [Surroundings.leaves_behind] at hfragment
      rw [Tag.closing, render_image _ _ _ _ himages, run_image _ _ _ _ himages]
      exact ⟨(fragment_image url title inner opened).append hfragment, hkeeps⟩
    · have hinsideImages := (w.afterStart_images himage).trans himages
      have hmeets := hplace.afterStart hinside
      have hinsideKeeps := (ihInner hinner hinsideImages hmeets []).2
      have helement := fragment_element himage inner himages
        (fun opened => hleft ▸ (ihInner hinner hinsideImages hmeets opened).1) hinsideKeeps opened
      have hkeeps := hinsideKeeps.element (fun h => hplace.tableHead (h ▸ hinside)) himage
      rw [← run_element inner.events himages (hinsideKeeps.images.trans hinsideImages)] at hkeeps
      obtain ⟨hfragment, hkeepsRest⟩ := ihRest hrest (hkeeps.images.trans himages)
        (hplace.behind hkeeps) (leftBehind tag ++ opened)
      rw [Surroundings.leaves_behind] at hfragment
      have hevents : Event.start tag :: (inner.events ++ .stop tag.closing :: rest.events) =
          (.start tag :: (inner.events ++ [.stop tag.closing])) ++ rest.events := by simp
      rw [hevents, render_append, run_append, Nesting.shown_element himage]
      exact ⟨helement.append hfragment, hkeeps.trans hkeepsRest⟩

/-- HTML that is written without raw HTML is well formed, for a block and for the item of a list:
`<` and `>` stand in whole tags only, every element is closed once and in the order of nesting, and
besides the tags there is the text of the events, character by character. Then no list, no image and
no head of a table is open. An image is one tag, whatever is nested in it; its alternative text is
the text of that. -/
theorem render_wellFormed {n : Nesting} (hn : n.fits .flow = true) :
    (∀ w ∈ [HtmlWriter.block, HtmlWriter.item],
      (∃ pieces, Html.pieces? (w.render n.events) = some pieces ∧
        Html.nest [] (Html.tags pieces) = some [] ∧ Html.shown pieces = n.shown) ∧
      (w.run n.events).lists = 0 ∧ (w.run n.events).images = 0 ∧
      (w.run n.events).inTableHead = false) ∧
    ∀ (w : HtmlWriter) (url title : Text) (span stop : Span) (inner : Nesting), w.images = 0 →
      Html.pieces? (w.render (Nesting.element (.image url title) span inner stop .done).events) =
        some [.tag (.empty "img".toList
          ((imageAttributes url title inner).map fun a => (a.1, some a.2)))] := by
  constructor
  · intro w hw
    have hfresh : w.lists = 0 ∧ w.images = 0 ∧ w.inTableHead = false := by
      simp only [List.mem_cons, List.not_mem_nil, or_false] at hw
      rcases hw with rfl | rfl <;> exact ⟨rfl, rfl, rfl⟩
    obtain ⟨hlists, himages, hhead⟩ := hfresh
    obtain ⟨⟨pieces, hreads, hnest, hshown⟩, hkeeps⟩ :=
      fragment_nesting n hn himages (.inr (.inr hhead)) []
    exact ⟨⟨pieces, Html.pieces?_eq_some_iff.mpr hreads, hnest, hshown⟩,
      hkeeps.lists.trans hlists, hkeeps.images.trans himages, hkeeps.inTableHead.trans hhead⟩
  · intro w url title span stop inner himages
    have himage := render_image url title inner [] himages
    rw [render, List.append_nil] at himage
    rw [Html.pieces?_eq_some_iff, Nesting.events_element, Tag.closing]
    exact himage ▸ reads_image url title inner

theorem render_wellFormed_table :
    let at0 : Span := ⟨0, 0⟩
    let wrap (tag : Tag) (inner rest : Nesting) : Nesting := .element tag at0 inner at0 rest
    let text (s : String) (rest : Nesting) : Nesting := .leaf ⟨.text s.toList, at0⟩ rfl rest
    let image := wrap (.image "a.png".toList [])
      (text "1 < 2" (wrap (.image [] []) (text "\"3\"" .done) .done)) .done
    let table := wrap (.table [.right]) (wrap .tableHead (wrap .tableCell (text "x" .done) .done)
      (wrap .tableRow (wrap .tableCell image .done) .done)) .done
    let n := wrap .paragraph (text "a & b" .done) (wrap (.list none) (wrap .item (wrap .paragraph
      (.leaf ⟨.taskMarker true, at0⟩ rfl (text "c" .done)) table) .done) .done)
    n.fits .flow = true ∧
      item.render n.events = "a &amp; b<ul><li><p>c</p><table><thead><tr>".toList ++
        "<th style=\"text-align: right\">x</th></tr></thead><tbody><tr>".toList ++
        "<td style=\"text-align: right\">".toList ++
        "<img src=\"a.png\" alt=\"1 &lt; 2&quot;3&quot;\" />".toList ++
        "</td></tr></tbody></table></li></ul>".toList ∧
      (∃ pieces, Html.pieces? (item.render n.events) = some pieces ∧
        Html.nest [] (Html.tags pieces) = some [] ∧ Html.shown pieces = "a & bcx".toList) ∧
      (item.run n.events).lists = 0 ∧ (item.run n.events).inTableHead = false := by
  intro at0 wrap text image table n
  have hfits : n.fits .flow = true := by decide
  obtain ⟨hpieces, hlists, -, hhead⟩ := (render_wellFormed hfits).1 item (by simp)
  exact ⟨hfits, by decide +kernel, hpieces, hlists, hhead⟩

end HtmlWriter
end Quizdown
