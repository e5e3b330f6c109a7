import Quizdown.Proofs.Html.Hidden
import Quizdown.Proofs.Html.Pieces

/-! The tags in the HTML of an item, whatever stands in it: check boxes are left out, and so are the
paragraphs of the item itself. Those that are written stand in a list inside the item. -/
set_option autoImplicit false

namespace Quizdown
namespace Html

def listNames : Texts := ["ul".toList, "ol".toList]

def Tag.lists (depth : Nat) : Tag → Nat
  | start name _ => if listNames.contains name then depth + 1 else depth
  | empty _ _ => depth
  | stop name => if listNames.contains name then depth - 1 else depth

def openLists (depth : Nat) (ts : List Tag) : Nat := ts.foldl Tag.lists depth

/-- The tag is that of no check box, and if it is that of a paragraph, a list is open. -/
def Tag.Unwrapped (depth : Nat) (t : Tag) : Prop :=
  t.name ≠ "input".toList ∧ (t.name = "p".toList → 0 < depth)

structure Unwrapped (before : Nat) (ts : List Tag) (behind : Nat) : Prop where
  each : ∀ front t rest, ts = front ++ t :: rest → t.Unwrapped (openLists before front)
  lists : openLists before ts = behind

namespace Unwrapped

variable {before between behind : Nat} {ts us : List Tag} {t : Tag}

theorem nil (depth : Nat) : Unwrapped depth [] depth where
  each front t rest h := by simp at h
  lists := rfl

theorem cons (ht : t.Unwrapped before) (hts : Unwrapped (t.lists before) ts behind) :
    Unwrapped before (t :: ts) behind where
  each front s rest h := by
    cases front with
    | nil =>
      obtain ⟨rfl, -⟩ := List.cons.inj h
      exact ht
    | cons u front =>
      obtain ⟨rfl, hts'⟩ := List.cons.inj h
      exact hts.each front s rest hts'
  lists := hts.lists

theorem append (hts : Unwrapped before ts between) (hus : Unwrapped between us behind) :
    Unwrapped before (ts ++ us) behind := by
  obtain ⟨hts, rfl⟩ := hts
  induction ts generalizing before with
  | nil => exact hus
  | cons t ts ih =>
    refine cons (hts [] t ts rfl) (ih (fun front s rest h => ?_) hus)
    exact hts (t :: front) s rest (congrArg (t :: ·) h)

theorem ofList (h : t.name ∈ listNames) (depth : Nat) : Unwrapped depth [t] (t.lists depth) := by
  have hnames : ∀ name ∈ listNames, name ≠ "input".toList ∧ name ≠ "p".toList := by decide
  obtain ⟨hbox, hparagraph⟩ := hnames _ h
  exact cons ⟨hbox, fun h => absurd h hparagraph⟩ (nil _)

theorem ofParagraph (h : t.name = "p".toList) {depth : Nat} (hdepth : 0 < depth) :
    Unwrapped depth [t] depth := by
  have hno : ¬ listNames.contains t.name = true := by
    rw [h]
    decide
  have hlists : t.lists depth = depth := by
    cases t with
    | empty name attributes => rfl
    | _ => exact if_neg hno
  have hbox : t.name ≠ "input".toList := by
    rw [h]
    decide
  exact cons ⟨hbox, fun _ => hdepth⟩ (hlists.symm ▸ nil _)

def special : Texts := ["input".toList, "p".toList, "ul".toList, "ol".toList]

theorem plain (h : ∀ t ∈ ts, t.name ∉ special) (depth : Nat) : Unwrapped depth ts depth := by
  induction ts with
  | nil => exact nil depth
  | cons t ts ih =>
    obtain ⟨ht, hts⟩ := List.forall_mem_cons.mp h
    simp only [special, List.mem_cons, List.not_mem_nil, or_false, not_or] at ht
    obtain ⟨hbox, hparagraph, hul, hol⟩ := ht
    have hlists : t.lists depth = depth := by
      have hno : ¬ listNames.contains t.name = true :=
        fun h => (List.mem_pair.mp (List.contains_iff_mem.mp h)).elim hul hol
      cases t with
      | empty name attributes => rfl
      | _ => exact if_neg hno
    exact cons ⟨hbox, fun h => absurd h hparagraph⟩ (hlists.symm ▸ ih hts)

end Unwrapped
end Html

open Html (Unwrapped)

namespace HtmlWriter

variable {w : HtmlWriter} {tag : Tag} {t : Html.Tag}

theorem name_openingTags (h : t ∈ w.openingTags tag) :
    t.name ∈ w.elements tag ∨ t.name = "br".toList := by
  rw [openingTags] at h
  split at h
  · split_ifs at h
    · exact .inr (List.mem_singleton.mp h ▸ rfl)
    · cases h
  · rename_i innermost outer hsome
    rw [hsome]
    rcases List.mem_append.mp h with h | h
    · obtain ⟨name, hname, rfl⟩ := List.mem_map.mp h
      exact .inl (List.mem_cons_of_mem _ (List.mem_reverse.mp hname))
    · exact .inl (List.mem_singleton.mp h ▸ List.mem_cons_self ..)

theorem name_closingTags (h : t ∈ w.closingTags tag) :
    t.name ∈ w.elements tag ∨ t.name = "tbody".toList := by
  have hinside : ∀ name ∈ leftInside tag, name = "tbody".toList := by
    cases tag <;> simp [leftInside, bodyOfTable]
  have hbehind : ∀ name ∈ leftBehind tag, name = "tbody".toList := by
    cases tag <;> simp [leftBehind, bodyOfTable]
  rcases List.mem_append.mp h with h | h <;> obtain ⟨name, hname, rfl⟩ := List.mem_map.mp h
  · rcases List.mem_append.mp hname with hname | hname
    · exact .inr (hinside name hname)
    · exact .inl hname
  · exact .inr (hbehind name hname)

/-- The elements that are written of events in an item that are no elements themselves. -/
def leafNames : Texts := ["code".toList, "br".toList, "hr".toList]

theorem name_leafPieces (hitem : w.forItem = true) {e : Event}
    (h : t ∈ Html.tags (w.leafPieces e)) : t.name ∈ leafNames := by
  have hone (single : Html.Tag) (hsingle : single.name ∈ leafNames) (ht : t ∈ [single]) :
      t.name ∈ leafNames := List.mem_singleton.mp ht ▸ hsingle
  cases e with
  | text s =>
    rw [leafPieces, Html.tags_chars] at h
    cases h
  | code s =>
    rw [leafPieces, Html.tags_cons_tag, Html.tags_append, Html.tags_chars, List.nil_append] at h
    rcases List.mem_cons.mp h with rfl | h
    · decide
    · exact hone (.stop "code".toList) (by decide) h
  | taskMarker checked =>
    rw [leafPieces, if_pos hitem] at h
    cases h
  | hardBreak => exact hone (.empty "br".toList []) (by decide) h
  | rule => exact hone (.empty "hr".toList []) (by decide) h
  | _ => cases h

theorem elements_plain (hparagraph : tag ≠ .paragraph) (hlist : ∀ start, tag ≠ .list start)
    {name : Text} (h : name ∈ w.elements tag) : name ∉ Unwrapped.special := by
  cases tag with
  | paragraph => exact absurd rfl hparagraph
  | list start => exact absurd rfl (hlist start)
  | heading level =>
    rw [List.mem_singleton.mp h]
    simp [Unwrapped.special, headingName]
  | tableCell =>
    rw [List.mem_singleton.mp h, cellName]
    split_ifs <;> decide
  | codeBlock info =>
    simp only [elements, List.mem_cons, List.not_mem_nil, or_false] at h
    rcases h with rfl | rfl <;> decide
  | tableHead =>
    simp only [elements, List.mem_cons, List.not_mem_nil, or_false] at h
    rcases h with rfl | rfl <;> decide
  | image url title => cases h
  | footnoteDefinition => cases h
  | htmlBlock => cases h
  | metadata => cases h
  | _ =>
    rw [List.mem_singleton.mp h]
    decide

theorem tag_cases (tag : Tag) : tag = .paragraph ∨ (∃ start, tag = .list start) ∨
    (tag ≠ .paragraph ∧ ∀ start, tag ≠ .list start) := by
  cases tag <;> simp

theorem lists_pos_of_not_bare (hitem : w.forItem = true) (h : w.bare = false) : 0 < w.lists := by
  rw [bare, hitem, Bool.true_and] at h
  exact Nat.pos_of_ne_zero (beq_eq_false_iff_ne.mp h)

theorem unwrapped_opening (hitem : w.forItem = true) (tag : Tag) :
    Unwrapped w.lists (w.openingTags tag) (w.afterStart tag).lists := by
  rcases tag_cases tag with rfl | ⟨start, rfl⟩ | ⟨hparagraph, hlist⟩
  · rw [afterStart_paragraph.lists, openingTags, elements]
    cases hbare : w.bare with
    | true =>
      rw [if_pos rfl]
      dsimp only
      split_ifs
      · exact .plain (by decide) _
      · exact .nil _
    | false => exact .ofParagraph rfl (lists_pos_of_not_bare hitem hbare)
  · cases start <;> exact .ofList (by simp [Html.listNames, Html.Tag.name]) _
  · have hlists : (w.afterStart tag).lists = w.lists := by
      cases tag with
      | paragraph => exact absurd rfl hparagraph
      | list start => exact absurd rfl (hlist start)
      | _ => rfl
    rw [hlists]
    refine .plain (fun t ht => ?_) _
    rcases name_openingTags ht with hname | hname
    · exact elements_plain hparagraph hlist hname
    · rw [hname]
      decide

theorem unwrapped_closing (hitem : w.forItem = true) (tag : Tag) :
    Unwrapped w.lists (w.closingTags tag) (w.afterStop tag.closing).lists := by
  rcases tag_cases tag with rfl | ⟨start, rfl⟩ | ⟨hparagraph, hlist⟩
  · change Unwrapped w.lists _ w.lists
    rw [closingTags, elements]
    cases hbare : w.bare with
    | true => exact .nil _
    | false => exact .ofParagraph rfl (lists_pos_of_not_bare hitem hbare)
  · cases start <;> exact .ofList (by simp [Html.listNames, Html.Tag.name]) _
  · have hlists : (w.afterStop tag.closing).lists = w.lists := by
      cases tag with
      | list start => exact absurd rfl (hlist start)
      | _ => rfl
    rw [hlists]
    refine .plain (fun t ht => ?_) _
    rcases name_closingTags ht with hname | hname
    · exact elements_plain hparagraph hlist hname
    · rw [hname]
      decide

theorem unwrapped_leaf (hitem : w.forItem = true) (e : Event) (depth : Nat) :
    Unwrapped depth (Html.tags (w.leafPieces e)) depth := by
  have hplain : ∀ name ∈ leafNames, name ∉ Unwrapped.special := by decide
  exact .plain (fun t ht => hplain _ (name_leafPieces hitem ht)) depth

/-- In an item the tags of all that stands in it are written without paragraphs of its own and
without check boxes, and lists are closed behind them. -/
theorem unwrapped_pieces (n : Nesting) (hitem : w.forItem = true) (himages : w.images = 0) :
    Unwrapped w.lists (Html.tags (n.pieces w)) w.lists := by
  -- the writer varies; the number of lists that it counts is that of the tags
  induction n generalizing w with
  | done => exact .nil _
  | leaf e alone rest ih =>
    rw [Nesting.pieces, Html.tags_append]
    exact (unwrapped_leaf hitem e.event _).append (ih hitem himages)
  | element tag span inner stop rest ihInner ihRest =>
    rcases tag.image_or with ⟨url, title, rfl⟩ | hno
    · have himage : (imageTag url title inner).name ∉ Unwrapped.special := by
        change "img".toList ∉ Unwrapped.special
        decide
      rw [Nesting.pieces, ← List.singleton_append, Html.tags_append]
      exact Unwrapped.append (.plain (List.forall_mem_singleton.mpr himage) _)
        (ihRest hitem himages)
    · have hinsideImages := (w.afterStart_images hno).trans himages
      have hinside := level_run inner hinsideImages
      have hbehind := hinside.element hno
      have hinsideItem := (w.afterStart_forItem tag).trans hitem
      rw [Nesting.pieces_element hno, Html.tags_append, Html.tags_append, Html.tags_append,
        Html.tags_map_tag, Html.tags_map_tag]
      have hinner := ihInner hinsideItem hinsideImages
      have hrest := ihRest (hbehind.forItem.trans hitem) hbehind.images
      rw [hbehind.lists] at hrest
      have hclosing := unwrapped_closing (hinside.forItem.trans hinsideItem) tag
      rw [hbehind.lists, hinside.lists] at hclosing
      exact ((unwrapped_opening hitem tag).append hinner).append (hclosing.append hrest)

end HtmlWriter

end Quizdown
