import Quizdown.Html.PlainText
import Quizdown.Proofs.Html.Pieces
import Quizdown.Proofs.Text.Trim

/-! HTML and plain text of the same events carry the same characters, blanks apart: those of text
and code, in their order. A reader of the HTML finds them in running text and, where an image
stands, in its alternative text. -/
set_option autoImplicit false

namespace Quizdown
namespace Html

/-- The characters that a piece brings to a reader; an image brings its alternative text. -/
def Piece.legible : Piece → Text
  | char c => [c]
  | tag (.start name attributes) | tag (.empty name attributes) =>
    if name = "img".toList then ((attributes.lookup "alt".toList).join).getD [] else []
  | tag (.stop _) => []

def legible (pieces : List Piece) : Text := pieces.flatMap Piece.legible

theorem legible_append (ps qs : List Piece) : legible (ps ++ qs) = legible ps ++ legible qs :=
  List.flatMap_append

theorem legible_chars (s : Text) : legible (s.map .char) = s := by
  rw [legible, List.flatMap_map]
  simp [Piece.legible]

theorem legible_start {name : Text} (hvoid : isVoid name = false) (attributes : List Attribute) :
    (Piece.tag (.start name attributes)).legible = [] := by
  have himage : name ≠ "img".toList := by
    rintro rfl
    cases hvoid
  exact if_neg himage

theorem legible_starts {names : Texts} (hvoid : ∀ name ∈ names, isVoid name = false) :
    legible ((names.map (.start · [])).map .tag) = [] := by
  rw [legible, List.map_map, List.flatMap_map, List.flatMap_eq_nil_iff]
  exact fun name hname => legible_start (hvoid name hname) []

theorem legible_stops (names : Texts) : legible ((names.map .stop).map .tag) = [] := by
  rw [legible, List.map_map, List.flatMap_map, List.flatMap_eq_nil_iff]
  exact fun _ _ => rfl

end Html

open Html (isVoid)

namespace HtmlWriter

theorem legible_openingTags (w : HtmlWriter) (tag : Tag) :
    Html.legible ((w.openingTags tag).map .tag) = [] := by
  have hvoid := fun name => @isVoid_of_mem_elements w tag name
  rw [openingTags]
  split
  · split_ifs <;> rfl
  · rename_i innermost outer hsome
    rw [hsome] at hvoid
    have houter : ∀ name ∈ outer.reverse, isVoid name = false := fun name hname =>
      hvoid name (List.mem_cons_of_mem _ (List.mem_reverse.mp hname))
    rw [List.map_append, Html.legible_append, Html.legible_starts houter, List.nil_append]
    exact (List.flatMap_singleton ..).trans
      (Html.legible_start (hvoid innermost (List.mem_cons_self ..)) _)

theorem legible_closingTags (w : HtmlWriter) (tag : Tag) :
    Html.legible ((w.closingTags tag).map .tag) = [] := by
  have hbody : ∀ name ∈ leftBehind tag, isVoid name = false := by
    cases tag with
    | tableHead => decide
    | _ => exact List.forall_mem_nil _
  rw [closingTags, List.map_append, Html.legible_append, Html.legible_stops,
    Html.legible_starts hbody]
  rfl

theorem legible_leafPieces (w : HtmlWriter) (e : Event) :
    Text.solid (Html.legible (w.leafPieces e)) = Text.solid e.alt := by
  cases e with
  | text s => exact congrArg Text.solid (Html.legible_chars s)
  | code s =>
    have hcode : w.leafPieces (.code s) = [.tag (.start "code".toList [])] ++ s.map .char ++
        [.tag (.stop "code".toList)] := rfl
    rw [hcode, Html.legible_append, Html.legible_append, Html.legible_chars]
    exact congrArg Text.solid (List.append_nil s)
  | taskMarker checked =>
    rw [leafPieces]
    split_ifs <;> rfl
  | _ => rfl

end HtmlWriter

/-- Well-nested content brings the characters of its text and code, wherever they stand. -/
theorem Nesting.solid_legible_pieces (n : Nesting) (w : HtmlWriter) :
    Text.solid (Html.legible (n.pieces w)) = Text.solid n.alt := by
  induction n generalizing w with
  | done => rfl
  | leaf e alone rest ih =>
    rw [pieces, Html.legible_append, Text.solid_append, w.legible_leafPieces, ih, alt,
      Text.solid_append]
  | element tag span inner stop rest ihInner ihRest =>
    rw [alt, Text.solid_append]
    rcases tag.image_or with ⟨url, title, rfl⟩ | hno
    · have halt : Html.legible [.tag (HtmlWriter.imageTag url title inner)] = inner.alt := by
        cases title <;> exact List.append_nil inner.alt
      rw [pieces, ← List.singleton_append, Html.legible_append, Text.solid_append, halt, ihRest]
    · rw [pieces_element hno, Html.legible_append, Html.legible_append, Html.legible_append,
        HtmlWriter.legible_openingTags, HtmlWriter.legible_closingTags, List.nil_append,
        List.nil_append, Text.solid_append, ihInner, ihRest]

/-! Plain text. -/

theorem Nesting.alt_eq (n : Nesting) : n.alt = n.events.flatMap Event.alt := by
  induction n with
  | done => rfl
  | leaf e alone rest ih => rw [alt, ih, events_leaf, List.flatMap_cons]
  | element tag span inner stop rest ihInner ihRest =>
    rw [alt, ihInner, ihRest, events_element, List.flatMap_cons, List.flatMap_append,
      List.flatMap_cons]
    rfl

theorem Event.solid_plain (soFar : Text) (e : Event) :
    Text.solid (e.plain soFar) = Text.solid e.alt := by
  have hblank (b : Bool) : Text.solid (if b = true then [] else [' ']) = [] := by
    cases b <;> rfl
  cases e with
  | stop tag => cases tag <;> first | rfl | exact hblank _
  | _ => rfl

theorem solid_plainText (es : List Event) :
    Text.solid (plainText es) = Text.solid (es.flatMap Event.alt) := by
  have hfold (soFar : Text) :
      Text.solid (es.foldl (fun soFar e => soFar ++ e.plain soFar) soFar) =
        Text.solid soFar ++ Text.solid (es.flatMap Event.alt) := by
    induction es generalizing soFar with
    | nil => simp [Text.solid]
    | cons e es ih =>
      rw [List.foldl_cons, ih, Text.solid_append, Event.solid_plain, List.flatMap_cons,
        Text.solid_append, List.append_assoc]
  rw [plainText, Text.solid_trim, rawPlainText, hfold]
  rfl

/-- The HTML of well-nested events without raw HTML is read as running text and tags. Its characters,
with the alternative text of an image in the place of the image, are those of the plain text of the
same events in the same order, blanks apart; and this for every state of the writer in which no
image is open. -/
theorem legible_render {w : HtmlWriter} (himages : w.images = 0) {n : Nesting}
    (hraw : ∀ e ∈ n.events, e.isRaw = false) :
    ∃ pieces, Html.pieces? (w.render n.events) = some pieces ∧
      Text.solid (Html.legible pieces) = Text.solid (plainText n.events) := by
  refine ⟨n.pieces w,
    Html.pieces?_eq_some_iff.mpr (HtmlWriter.reads_nesting n hraw himages), ?_⟩
  rw [n.solid_legible_pieces, solid_plainText, Nesting.alt_eq]

theorem legible_render_image :
    let at0 (e : Event) : PlacedEvent := ⟨e, ⟨0, 0⟩⟩
    let image := Nesting.element (.image "u".toList "t".toList) ⟨0, 0⟩
      (.leaf (at0 (.code "x & y".toList)) rfl .done) ⟨0, 0⟩
      (.leaf (at0 (.text "z".toList)) rfl .done)
    let n := Nesting.element .paragraph ⟨0, 0⟩ (.leaf (at0 (.text "a < b".toList)) rfl image) ⟨0, 0⟩
      .done
    HtmlWriter.item.images = 0 ∧ (∀ e ∈ n.events, e.isRaw = false) ∧
      ∃ pieces, Html.pieces? (HtmlWriter.item.render n.events) = some pieces ∧
        Text.solid (Html.legible pieces) = "a<bx&yz".toList := by
  intro at0 image n
  have hraw : ∀ e ∈ n.events, e.isRaw = false := by decide
  obtain ⟨pieces, hpieces, hsolid⟩ := legible_render (w := HtmlWriter.item) rfl hraw
  exact ⟨rfl, hraw, pieces, hpieces, hsolid⟩

end Quizdown
