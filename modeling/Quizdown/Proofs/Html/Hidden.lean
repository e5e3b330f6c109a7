import Quizdown.Proofs.Html.Place
import Quizdown.Proofs.Html.Region
import Quizdown.Proofs.Text.Blank

/-! HTML that shows nothing: its running text is blank, and its tags are those of elements that only
arrange what is in them. A text shows nothing only if every beginning of it does. -/
set_option autoImplicit false

namespace Quizdown
namespace Html

/-- What stands between `<` and `>`, tag after tag. Of the tag that is open at the start this has
been read, latest character first; one that is open at the end does not count. -/
def tagTexts : Option Text → Text → Texts
  | _, [] => []
  | none, c :: s => if c = '<' then tagTexts (some []) s else tagTexts none s
  | some t, c :: s =>
    if c = '>' then t.reverse :: tagTexts none s else tagTexts (some (c :: t)) s

def elementName (tag : Text) : Text := (tag.dropWhile (· == '/')).takeWhile Char.isAlphanum

def plainElements : Texts :=
  ["p", "em", "strong", "s", "sup", "sub", "a", "br", "hr", "input", "blockquote", "ul", "ol",
   "li", "dl", "dt", "dd", "table", "thead", "tbody", "tr", "th", "td", "h1", "h2", "h3", "h4",
   "h5", "h6"].map String.toList

/-- There is no text, image or code, and no markup but that of plain elements. -/
structure ShowsNothing (html : Text) : Prop where
  text : ∀ c ∈ Region.text.shown html, Text.isBlank c = true
  tags : ∀ tag ∈ tagTexts none html, elementName tag ∈ plainElements

instance (html : Text) : Decidable (ShowsNothing html) :=
  decidable_of_iff (Text.isAllBlank (Region.text.shown html) = true ∧
    ∀ tag ∈ tagTexts none html, elementName tag ∈ plainElements)
    ⟨fun h => ⟨Text.isAllBlank_iff.mp h.1, h.2⟩,
      fun h => ⟨Text.isAllBlank_iff.mpr h.text, h.tags⟩⟩

variable {s t w : Text}

theorem tagTexts_append_left (o : Option Text) (s t : Text) :
    tagTexts o s <+: tagTexts o (s ++ t) := by
  induction s generalizing o with
  | nil => exact List.nil_prefix
  | cons c s ih =>
    cases o with
    | none =>
      rw [List.cons_append, tagTexts, tagTexts]
      split
      · exact ih _
      · exact ih _
    | some u =>
      rw [List.cons_append, tagTexts, tagTexts]
      split
      · exact List.prefix_cons_inj _ |>.mpr (ih _)
      · exact ih _

theorem ShowsNothing.of_append (h : ShowsNothing (s ++ t)) : ShowsNothing s where
  text c hc := h.text c (by
    rw [Region.shown_append]
    exact List.mem_append_left _ hc)
  tags tag htag := h.tags tag ((tagTexts_append_left none s t).subset htag)

theorem tagTexts_content (hw : '>' ∉ w) (u s : Text) :
    tagTexts (some u) (w ++ '>' :: s) = (u.reverse ++ w) :: tagTexts none s := by
  induction w generalizing u with
  | nil => simp [tagTexts]
  | cons c w ih =>
    simp only [List.mem_cons, not_or] at hw
    rw [List.cons_append, tagTexts, if_neg (Ne.symm hw.1), ih hw.2]
    simp

theorem tagTexts_tag (hw : '>' ∉ w) (s : Text) :
    tagTexts none ('<' :: w ++ '>' :: s) = w :: tagTexts none s := by
  rw [List.cons_append, tagTexts, if_pos rfl, tagTexts_content hw]
  rfl

structure Hollow (piece : Text) : Prop where
  nothing : ShowsNothing piece
  region : Region.text.run piece = .text
  tags : ∀ s, tagTexts none (piece ++ s) = tagTexts none piece ++ tagTexts none s

theorem Hollow.nil : Hollow [] := ⟨⟨nofun, nofun⟩, rfl, fun _ => rfl⟩

theorem Hollow.append (hs : Hollow s) (ht : Hollow t) : Hollow (s ++ t) where
  nothing := by
    constructor
    · rw [Region.shown_append, hs.region]
      exact List.forall_mem_append.mpr ⟨hs.nothing.text, ht.nothing.text⟩
    · rw [hs.tags]
      exact List.forall_mem_append.mpr ⟨hs.nothing.tags, ht.nothing.tags⟩
  region := by rw [Region.run_append, hs.region, ht.region]
  tags u := by rw [List.append_assoc, hs.tags, ht.tags, hs.tags, List.append_assoc]

theorem Hollow.blank {c : Char} (hc : Text.isBlank c = true) : Hollow [c] := by
  have hlt : c ≠ '<' := by
    rintro rfl
    cases hc
  refine ⟨⟨?_, ?_⟩, ?_, fun s => ?_⟩
  · simpa [Region.shown, hlt] using hc
  · simp [tagTexts, hlt]
  · simp [Region.run, Region.step, hlt]
  · simp [tagTexts, hlt]

theorem run_tag (hw : '>' ∉ w) : Region.tag.run w = .tag ∧ Region.tag.shown w = [] := by
  induction w with
  | nil => exact ⟨rfl, rfl⟩
  | cons c w ih =>
    simp only [List.mem_cons, not_or] at hw
    have hstep : Region.tag.step c = .tag := if_neg (Ne.symm hw.1)
    rw [Region.run, List.foldl_cons, Region.shown, hstep, if_neg (by simp)]
    exact ih hw.2

theorem Hollow.tag (hw : '>' ∉ w) (hname : elementName w ∈ plainElements) :
    Hollow ('<' :: w ++ ['>']) := by
  have htexts := tagTexts_tag hw
  cases w with
  | nil => exact absurd hname (by decide)
  | cons c w =>
    simp only [List.mem_cons, not_or] at hw
    have hbang : c ≠ '!' := by
      rintro rfl
      have hnil : elementName ('!' :: w) = [] := rfl
      exact absurd (hnil ▸ hname) (by decide)
    have hstep : Region.angle.step c = .tag := by
      rw [Region.step, if_neg (Ne.symm hw.1), if_neg hbang]
    obtain ⟨hrun, hshown⟩ := run_tag hw.2
    have htail : Region.angle.run (c :: w ++ ['>']) = .text ∧
        Region.angle.shown (c :: w ++ ['>']) = [] := by
      rw [List.cons_append, Region.run, List.foldl_cons, hstep, Region.shown, if_neg (by simp),
        hstep, Region.shown_append, hshown, hrun, ← Region.run, Region.run_append, hrun]
      exact ⟨rfl, rfl⟩
    refine ⟨⟨?_, ?_⟩, htail.1, fun s => ?_⟩
    · have hangle : Region.text.step '<' = .angle := rfl
      rw [List.cons_append, Region.shown, if_neg (by simp), hangle, htail.2]
      exact List.forall_mem_nil _
    · rw [htexts []]
      exact List.forall_mem_singleton.mpr hname
    · have happend : '<' :: (c :: w) ++ ['>'] ++ s = '<' :: (c :: w) ++ '>' :: s := by simp
      rw [happend, htexts, htexts []]
      rfl

theorem not_showsNothing_pre (s : Text) : ¬ ShowsNothing ("<pre>".toList ++ s) := fun h =>
  absurd (h.tags "pre".toList (by
    have htag := tagTexts_tag (w := "pre".toList) (by decide) s
    exact htag ▸ List.mem_cons_self)) (by decide)

/-! Tags as they are read. -/

def Tag.name : Tag → Text
  | .start name _ | .empty name _ | .stop name => name

theorem takeWhile_tagWords (s : Text) :
    (tagWords false s).1.takeWhile Char.isAlphanum = s.takeWhile Char.isAlphanum := by
  induction s with
  | nil => rfl
  | cons c s ih =>
    cases hc : c.isAlphanum with
    | true =>
      have hquote : c ≠ '"' := by
        rintro rfl
        cases hc
      have hblank : c ≠ ' ' := by
        rintro rfl
        cases hc
      simp [tagWords, beq_false_of_ne hquote, hblank, hc, ih]
    | false =>
      by_cases hblank : c = ' '
      · subst hblank
        simp [tagWords, hc]
      · simp [tagWords, hblank, hc]

theorem elementName_of_ofText? {t : Tag} (h : Tag.ofText? w = some t) :
    elementName w = t.name.takeWhile Char.isAlphanum := by
  unfold Tag.ofText? at h
  split at h
  · rename_i name
    obtain ⟨hname, heq⟩ := Option.ite_none_right_eq_some.mp h
    obtain rfl := Option.some.inj heq
    cases name with
    | nil => cases hname
    | cons c name =>
      have hslash : c ≠ '/' := ne_of_isNameChar (isNameChar_of_mem hname c (by simp)) rfl
      simp [elementName, Tag.name, hslash]
  · rename_i hopen
    have hhead : elementName w = w.takeWhile Char.isAlphanum := by
      cases w with
      | nil => rfl
      | cons c w =>
        have hslash : c ≠ '/' := fun hc => hopen w (by rw [hc])
        simp [elementName, hslash]
    have hname : t.name = (tagWords false w).1 := by
      dsimp only at h
      split_ifs at h
      · obtain ⟨_, -, rfl⟩ := Option.map_eq_some_iff.mp h
        rfl
      · obtain ⟨_, -, rfl⟩ := Option.map_eq_some_iff.mp h
        rfl
    rw [hhead, hname, takeWhile_tagWords]

def Position.content? : Position → Option Text
  | tag content => some content
  | _ => none

theorem Takes.tagTexts {p q : Position} {c : Char} {pieces : List Piece}
    (h : Takes p c q pieces) (s : Text) :
    (Html.tagTexts p.content? (c :: s)).map Tag.ofText? =
      (Html.tags pieces).map some ++ (Html.tagTexts q.content? s).map Tag.ofText? := by
  cases h with
  | char plain => simp [Html.tagTexts, Position.content?, plain.1, Html.tags, Piece.tag?]
  | name named =>
    have hlt : c ≠ '<' := by
      rintro rfl
      exact absurd named (by decide)
    simp [Html.tagTexts, Position.content?, hlt, Html.tags]
  | close whole => simp [Html.tagTexts, Position.content?, whole, Html.tags, Piece.tag?]
  | inside plain => simp [Html.tagTexts, Position.content?, plain.2, Html.tags]
  | _ => rfl

/-- The ends of the tags are enough to find all tags of a fragment that can be read. -/
theorem ofText?_tagTexts {p : Position} {pieces : List Piece}
    (h : read p s = some (.text, pieces)) :
    (tagTexts p.content? s).map Tag.ofText? = (Html.tags pieces).map some := by
  induction s generalizing p pieces with
  | nil =>
    obtain ⟨rfl, rfl⟩ := read_nil_eq_some h
    rfl
  | cons c s ih =>
    obtain ⟨next, first, more, htakes, hread, rfl⟩ := read_cons_eq_some h
    rw [htakes.tagTexts, ih hread, tags_append, List.map_append]

theorem forall_elementName_iff {pieces : List Piece} (h : Reads s pieces) {P : Text → Prop} :
    (∀ tag ∈ tagTexts none s, P (elementName tag)) ↔
      ∀ t ∈ Html.tags pieces, P (t.name.takeWhile Char.isAlphanum) := by
  have hread : (tagTexts none s).map Tag.ofText? = (Html.tags pieces).map some :=
    ofText?_tagTexts h
  constructor
  · intro hall t ht
    have hmem : some t ∈ (tagTexts none s).map Tag.ofText? := hread ▸ List.mem_map_of_mem ht
    obtain ⟨w, hw, heq⟩ := List.mem_map.mp hmem
    rw [← elementName_of_ofText? heq]
    exact hall w hw
  · intro hall w hw
    have hmem : Tag.ofText? w ∈ (Html.tags pieces).map some := hread ▸ List.mem_map_of_mem hw
    obtain ⟨t, ht, heq⟩ := List.mem_map.mp hmem
    rw [elementName_of_ofText? heq.symm]
    exact hall t ht

end Html
end Quizdown
