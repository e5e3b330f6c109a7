import Quizdown.Proofs.Html.WellFormed

/-! The HTML of well-nested events, piece by piece. It is read as the characters of text and code,
and as the tags of the elements, each written in the state that the writer is in at its place. -/
set_option autoImplicit false

namespace Quizdown

open Html (Reads)

namespace HtmlWriter

def imageTag (url title : Text) (inner : Nesting) : Html.Tag :=
  .empty "img".toList ((imageAttributes url title inner).map fun a => (a.1, some a.2))

end HtmlWriter

open HtmlWriter (imageTag)

/-- The pieces of well-nested events, from the start and the end of each element and the state of
the writer there. -/
def Nesting.pieces (w : HtmlWriter) : Nesting → List Html.Piece
  | done => []
  | leaf e _ rest => w.leafPieces e.event ++ rest.pieces w
  | element (.image url title) _ inner _ rest => .tag (imageTag url title inner) :: rest.pieces w
  | element tag _ inner _ rest =>
    let inside := (w.afterStart tag).run inner.events
    (w.openingTags tag).map .tag ++ inner.pieces (w.afterStart tag) ++
      ((inside.closingTags tag).map .tag ++ rest.pieces (inside.afterStop tag.closing))

theorem Nesting.pieces_element {w : HtmlWriter} {tag : Tag}
    (himage : ∀ url title, tag ≠ .image url title) (span stop : Span) (inner rest : Nesting) :
    (element tag span inner stop rest).pieces w =
      (w.openingTags tag).map .tag ++ inner.pieces (w.afterStart tag) ++
        ((((w.afterStart tag).run inner.events).closingTags tag).map .tag ++
          rest.pieces (((w.afterStart tag).run inner.events).afterStop tag.closing)) := by
  cases tag with
  | image url title => exact absurd rfl (himage url title)
  | _ => rfl

theorem Nesting.not_raw {n : Nesting} {place : Surroundings} (hn : n.fits place = true) :
    ∀ e ∈ n.events, e.isRaw = false := by
  induction n generalizing place with
  | done => exact List.forall_mem_nil _
  | leaf e alone rest ih =>
    obtain ⟨hadmits, hrest⟩ := Bool.and_eq_true_iff.mp hn
    rw [events_leaf]
    exact List.forall_mem_cons.mpr ⟨Surroundings.not_raw hadmits, ih hrest⟩
  | element tag span inner stop rest ihInner ihRest =>
    rw [fits] at hn
    split at hn
    case h_2 => cases hn
    obtain ⟨hinner, hrest⟩ := Bool.and_eq_true_iff.mp hn
    rw [events_element, List.forall_mem_cons, List.forall_mem_append, List.forall_mem_cons]
    exact ⟨rfl, ihInner hinner, rfl, ihRest hrest⟩

namespace HtmlWriter

variable {w : HtmlWriter} {tag : Tag}

theorem afterStart_forItem (w : HtmlWriter) (tag : Tag) :
    (w.afterStart tag).forItem = w.forItem := by
  cases tag with
  | paragraph => exact afterStart_paragraph.forItem
  | _ => rfl

structure Level (w v : HtmlWriter) : Prop where
  forItem : v.forItem = w.forItem
  lists : v.lists = w.lists
  images : v.images = 0

theorem Level.element {inside : HtmlWriter} (h : Level (w.afterStart tag) inside)
    (himage : ∀ url title, tag ≠ .image url title) : Level w (inside.afterStop tag.closing) := by
  obtain ⟨hitem, hlists, himages⟩ := h
  cases tag with
  | image url title => exact absurd rfl (himage url title)
  | paragraph =>
    rw [afterStart_paragraph.forItem] at hitem
    rw [afterStart_paragraph.lists] at hlists
    exact ⟨hitem, hlists, himages⟩
  | list start =>
    have hone : inside.lists = w.lists + 1 := hlists
    exact ⟨hitem, Nat.sub_eq_of_eq_add hone, himages⟩
  | _ => exact ⟨hitem, hlists, himages⟩

theorem level_run (n : Nesting) (himages : w.images = 0) : Level w (w.run n.events) := by
  induction n generalizing w with
  | done => exact ⟨rfl, rfl, himages⟩
  | leaf e alone rest ih =>
    rw [Nesting.events_leaf, run, List.foldl_cons, next_leaf alone]
    exact ih himages
  | element tag span inner stop rest ihInner ihRest =>
    rw [Nesting.events_element]
    rcases tag.image_or with ⟨url, title, rfl⟩ | hno
    · rw [Tag.closing, run_image url title inner _ himages]
      exact ihRest himages
    · have hinside := ihInner ((w.afterStart_images hno).trans himages)
      have hbehind := hinside.element hno
      have hrest := ihRest hbehind.images
      have hrun : w.run (.start tag :: (inner.events ++ .stop tag.closing :: rest.events)) =
          (((w.afterStart tag).run inner.events).afterStop tag.closing).run rest.events := by
        rw [← run_element inner.events himages hinside.images, ← run_append]
        simp
      rw [hrun]
      exact ⟨hrest.forItem.trans hbehind.forItem, hrest.lists.trans hbehind.lists, hrest.images⟩

/-- Well-nested content is read as its pieces. -/
theorem reads_nesting (n : Nesting) (hraw : ∀ e ∈ n.events, e.isRaw = false)
    (himages : w.images = 0) : Reads (w.render n.events) (n.pieces w) := by
  -- the writer varies; between elements it has no image open, and inside an image it is not asked
  induction n generalizing w with
  | done => rfl
  | leaf e alone rest ih =>
    rw [Nesting.events_leaf, List.forall_mem_cons] at hraw
    rw [Nesting.events_leaf, render, next_leaf alone]
    exact (reads_leaf alone hraw.1 himages).append (ih hraw.2 himages)
  | element tag span inner stop rest ihInner ihRest =>
    rw [Nesting.events_element, List.forall_mem_cons, List.forall_mem_append,
      List.forall_mem_cons] at hraw
    obtain ⟨-, hinnerRaw, -, hrestRaw⟩ := hraw
    rw [Nesting.events_element]
    rcases tag.image_or with ⟨url, title, rfl⟩ | hno
    · rw [Tag.closing, render_image url title inner _ himages]
      exact (reads_image url title inner).append (ihRest hrestRaw himages)
    · have hinsideImages := (w.afterStart_images hno).trans himages
      have hinside := level_run inner hinsideImages
      rw [Nesting.pieces_element hno, render, emit_start himages, next_start himages,
        render_append, render, emit_stop hinside.images, next_stop hinside.images,
        ← List.append_assoc]
      exact ((reads_opening w hno).append (ihInner hinnerRaw hinsideImages)).append
        ((reads_closing _ hno).append (ihRest hrestRaw (hinside.element hno).images))

end HtmlWriter
end Quizdown
