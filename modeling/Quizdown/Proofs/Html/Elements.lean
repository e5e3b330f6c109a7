import Quizdown.Html.Writer
import Quizdown.Proofs.Html.Reading

/-! What the writer adds for the start of an element is closed by what it adds for the end. Each
addition reads as whole tags, and only text and code show characters. -/
set_option autoImplicit false

namespace Quizdown
namespace Html

/-- The text reads as whole pieces. They lead from the open elements `before` to those `behind`,
the innermost first, and show the running text. -/
def Fragment (before : Texts) (s : Text) (behind : Texts) (running : Text) : Prop :=
  ∃ pieces, Reads s pieces ∧ nest before (tags pieces) = some behind ∧ shown pieces = running

theorem nest_append {opened between behind : Texts} {ts us : List Tag}
    (h : nest opened ts = some between) (h' : nest between us = some behind) :
    nest opened (ts ++ us) = some behind := by
  induction ts generalizing opened with
  | nil =>
    obtain rfl := Option.some.inj h
    exact h'
  | cons t ts ih =>
    rw [nest] at h
    rw [List.cons_append, nest]
    cases ht : t.nest opened with
    | none =>
      rw [ht] at h
      cases h
    | some next =>
      rw [ht] at h
      exact ih h

theorem tags_map_tag (ts : List Tag) : tags (ts.map .tag) = ts := by
  simp [tags, Piece.tag?, Function.comp_def]

theorem tags_cons_tag (t : Tag) (ps : List Piece) : tags (.tag t :: ps) = t :: tags ps := rfl

theorem shown_append (ps qs : List Piece) : shown (ps ++ qs) = shown ps ++ shown qs :=
  List.filterMap_append

theorem shown_chars (s : Text) : shown (s.map .char) = s := by
  simp [shown, Piece.char?, Function.comp_def]

theorem shown_map_tag (ts : List Tag) : shown (ts.map .tag) = [] := by simp [shown, Piece.char?]

theorem shown_cons_tag (t : Tag) (ps : List Piece) : shown (.tag t :: ps) = shown ps := rfl

theorem nest_starts {names opened : Texts} (h : ∀ name ∈ names, isVoid name = false) :
    nest opened (names.map (.start · [])) = some (names.reverse ++ opened) := by
  induction names generalizing opened with
  | nil => rfl
  | cons name names ih =>
    obtain ⟨hname, hnames⟩ := List.forall_mem_cons.mp h
    simp [nest, Tag.nest, hname, ih hnames]

theorem nest_stops (names opened : Texts) :
    nest (names ++ opened) (names.map .stop) = some opened := by
  induction names with
  | nil => rfl
  | cons name names ih => simpa [nest, Tag.nest] using ih

theorem reads_bareStart {name : Text} (hname : isName name = true) :
    Reads ('<' :: name ++ ['>']) [.tag (.start name [])] := by
  have hstart : Reads ('<' :: (name ++ [].flatMap Element.attributeText) ++ ['>'])
      [.tag (.start name [])] := reads_start hname (by simp)
  simpa using hstart

namespace Fragment

variable {before between behind opened : Texts} {s t x y : Text}

theorem nil : Fragment opened [] opened [] := ⟨[], rfl, rfl, rfl⟩

theorem append (hs : Fragment before s between x) (ht : Fragment between t behind y) :
    Fragment before (s ++ t) behind (x ++ y) := by
  obtain ⟨ps, hreads, hnest, rfl⟩ := hs
  obtain ⟨qs, hreads', hnest', rfl⟩ := ht
  refine ⟨ps ++ qs, hreads.append hreads', ?_, shown_append ps qs⟩
  rw [tags_append]
  exact nest_append hnest hnest'

theorem text (s : Text) : Fragment opened (escapeText s) opened s :=
  ⟨s.map .char, reads_escapeText s, by rw [tags_chars, nest], shown_chars s⟩

end Fragment
end Html

open Html (Fragment Reads isName isVoid reads_start reads_stop reads_bareStart)

namespace HtmlWriter

variable {before between behind opened : Texts}

theorem isDigit_of_mem_ofNat {n : Nat} {c : Char} (h : c ∈ Text.ofNat n) : c.isDigit = true :=
  Nat.isDigit_of_mem_toDigits (by decide) (by decide) h

theorem isName_headingName (level : Nat) : isName (headingName level) = true := by
  rw [headingName, isName, Bool.and_eq_true, List.all_eq_true]
  refine ⟨by decide, fun c hc => ?_⟩
  simp [Html.isNameChar, Char.isAlphanum, isDigit_of_mem_ofNat hc]

theorem isVoid_headingName (level : Nat) : isVoid (headingName level) = false := by
  have hne : Text.ofNat level ≠ ['r'] := fun h =>
    absurd (isDigit_of_mem_ofNat (h ▸ List.mem_singleton_self 'r')) (by decide)
  simp [isVoid, Html.voidNames, headingName, hne]

def elements (w : HtmlWriter) : Tag → Texts
  | .paragraph => if w.bare then [] else ["p".toList]
  | .heading level => [headingName level]
  | .blockQuote => ["blockquote".toList]
  | .codeBlock _ => ["code".toList, "pre".toList]
  | .list none => ["ul".toList]
  | .list (some _) => ["ol".toList]
  | .item => ["li".toList]
  | .table _ => ["table".toList]
  | .tableHead => ["tr".toList, "thead".toList]
  | .tableRow => ["tr".toList]
  | .tableCell => [w.cellName]
  | .emphasis => ["em".toList]
  | .strong => ["strong".toList]
  | .strikethrough => ["s".toList]
  | .superscript => ["sup".toList]
  | .subscript => ["sub".toList]
  | .link _ _ => ["a".toList]
  | .definitionList => ["dl".toList]
  | .definitionTitle => ["dt".toList]
  | .definition => ["dd".toList]
  | .image _ _ | .footnoteDefinition | .htmlBlock | .metadata => []

/-- The elements that the head of a table leaves open for the end of the table. -/
def bodyOfTable : Texts := ["tbody".toList]

/-- The elements that are open in front of an end, beside those of its own start. -/
def leftInside : Tag → Texts
  | .table _ => bodyOfTable
  | _ => []

def leftBehind : Tag → Texts
  | .tableHead => bodyOfTable
  | _ => []

theorem isName_cellName (w : HtmlWriter) :
    isName w.cellName = true ∧ isVoid w.cellName = false := by
  rw [cellName]
  cases w.inTableHead <;> decide

def targetAttributes (name url title : Text) : List (Text × Text) :=
  (name, url) :: if title.isEmpty then [] else [("title".toList, title)]

theorem target_eq (name url title : Text) :
    target name url title = (targetAttributes name url title).flatMap Element.attributeText := by
  cases title with
  | nil => simp [target, targetAttributes, Element.attributeText]
  | cons c title => simp [target, targetAttributes, Element.attributeText]

theorem isName_targetAttributes {name : Text} (hname : isName name = true) (url title : Text) :
    ∀ a ∈ targetAttributes name url title, isName a.1 = true := by
  cases title with
  | nil => simp [targetAttributes, hname]
  | cons c title =>
    have htitle : isName "title".toList = true := by decide
    exact List.forall_mem_cons.mpr ⟨hname, List.forall_mem_singleton.mpr htitle⟩

def cellAttributes : Option Alignment → List (Text × Text)
  | some .left => [("style".toList, "text-align: left".toList)]
  | some .center => [("style".toList, "text-align: center".toList)]
  | some .right => [("style".toList, "text-align: right".toList)]
  | _ => []

theorem cellStyle_eq (a : Option Alignment) :
    cellStyle a = (cellAttributes a).flatMap Element.attributeText := by
  rcases a with _ | _ | _ | _ | _ <;> rfl

theorem isName_cellAttributes (a : Option Alignment) :
    ∀ b ∈ cellAttributes a, isName b.1 = true := by
  rcases a with _ | _ | _ | _ | _ <;> decide

def codeAttributes (info : Text) : List (Text × Text) :=
  [("class".toList, "language-".toList ++ (Text.words info).headD [])]

theorem isName_codeAttributes (info : Text) : ∀ a ∈ codeAttributes info, isName a.1 = true := by
  have hclass : isName "class".toList = true := by decide
  exact List.forall_mem_singleton.mpr hclass

theorem codeOpening_eq {info : Text} (h : info ≠ []) :
    codeOpening (some info) = "<pre>".toList ++
      ('<' :: ("code".toList ++ (codeAttributes info).flatMap Element.attributeText) ++ ['>']) := by
  have hself : escapeValue "language-".toList = "language-".toList := rfl
  have hsome : codeOpening (some info) = if info.isEmpty then "<pre><code>".toList
      else "<pre><code class=\"language-".toList ++ escapeValue ((Text.words info).headD []) ++
        "\">".toList := rfl
  have hempty : ¬ info.isEmpty = true := by simpa using h
  rw [hsome, if_neg hempty, codeAttributes, List.flatMap_singleton, Element.attributeText,
    escapeValue, escapeValue, List.flatMap_append, ← escapeValue, ← escapeValue, hself]
  simp only [List.append_assoc, List.cons_append]
  rfl

theorem escapeValue_ofNat (n : Nat) : escapeValue (Text.ofNat n) = Text.ofNat n := by
  have hself : ∀ s : Text, (∀ c ∈ s, c.isDigit = true) → escapeValue s = s := by
    intro s hs
    induction s with
    | nil => rfl
    | cons c s ih =>
      obtain ⟨hc, hs⟩ := List.forall_mem_cons.mp hs
      have hne : ∀ d : Char, d.isDigit = false → c ≠ d := by
        rintro d hd rfl
        rw [hc] at hd
        cases hd
      have htail := ih hs
      rw [escapeValue] at htail ⊢
      rw [List.flatMap_cons, htail]
      simp [hne '<' (by decide), hne '>' (by decide), hne '&' (by decide), hne '\'' (by decide),
        hne '"' (by decide)]
  exact hself _ fun c hc => isDigit_of_mem_ofNat hc

def listAttributes (n : Nat) : List (Text × Text) :=
  if n = 1 then [] else [("start".toList, Text.ofNat n)]

theorem isName_listAttributes (n : Nat) : ∀ a ∈ listAttributes n, isName a.1 = true := by
  have hstart : isName "start".toList = true := by decide
  rw [listAttributes]
  split_ifs
  · simp
  · exact List.forall_mem_singleton.mpr hstart

theorem listOpening_eq (w : HtmlWriter) (n : Nat) :
    w.opening (.list (some n)) =
      '<' :: ("ol".toList ++ (listAttributes n).flatMap Element.attributeText) ++ ['>'] := by
  have hsome : w.opening (.list (some n)) = if n = 1 then "<ol>".toList
      else "<ol start=\"".toList ++ Text.ofNat n ++ "\">".toList := rfl
  rw [hsome, listAttributes]
  split_ifs
  · rfl
  · simp [Element.attributeText, escapeValue_ofNat]

def attributes (w : HtmlWriter) : Tag → List (Text × Text)
  | .codeBlock (some info) => if info.isEmpty then [] else codeAttributes info
  | .list (some n) => listAttributes n
  | .tableCell => cellAttributes w.columns[w.cell]?
  | .link url title => targetAttributes "href".toList url title
  | _ => []

/-- The tags of a start: those of its elements, the outermost first. A paragraph without an element
begins with a break if there was one before. -/
def openingTags (w : HtmlWriter) (tag : Tag) : List Html.Tag :=
  match w.elements tag with
  | [] => if tag = .paragraph ∧ w.hadParagraph = true then [.empty "br".toList []] else []
  | innermost :: outer => outer.reverse.map (.start · []) ++
      [.start innermost ((w.attributes tag).map fun a => (a.1, some a.2))]

def closingTags (w : HtmlWriter) (tag : Tag) : List Html.Tag :=
  (leftInside tag ++ w.elements tag).map .stop ++ (leftBehind tag).map (.start · [])

theorem reads_codeOpening (w : HtmlWriter) (info : Option Text) :
    Reads (codeOpening info) ((w.openingTags (.codeBlock info)).map .tag) := by
  rcases info with _ | _ | ⟨c, info⟩
  · rfl
  · rfl
  · have hpre : Reads "<pre>".toList [.tag (.start "pre".toList [])] := rfl
    rw [codeOpening_eq (by simp)]
    exact hpre.append (reads_start (by decide) (isName_codeAttributes _))

theorem reads_opening (w : HtmlWriter) {tag : Tag} (himage : ∀ url title, tag ≠ .image url title) :
    Reads (w.opening tag) ((w.openingTags tag).map .tag) := by
  cases tag with
  | paragraph =>
    have hopening : w.opening .paragraph = if w.bare then
        (if w.hadParagraph then "<br />".toList else []) else "<p>".toList := rfl
    rw [hopening, openingTags, elements]
    cases w.bare with
    | true => cases w.hadParagraph <;> rfl
    | false => rfl
  | heading level => exact reads_bareStart (isName_headingName level)
  | codeBlock info => exact reads_codeOpening w info
  | list start =>
    cases start with
    | none => rfl
    | some n =>
      rw [listOpening_eq]
      exact reads_start (by decide) (isName_listAttributes n)
  | tableCell =>
    have hcell : w.opening .tableCell =
        '<' :: w.cellName ++ cellStyle w.columns[w.cell]? ++ ['>'] := rfl
    rw [hcell, cellStyle_eq]
    exact reads_start w.isName_cellName.1 (isName_cellAttributes _)
  | link url title =>
    have hlink : w.opening (.link url title) = '<' :: ("a".toList ++
        (targetAttributes "href".toList url title).flatMap Element.attributeText) ++ ['>'] := by
      rw [← target_eq]
      rfl
    rw [hlink]
    exact reads_start (by decide) (isName_targetAttributes (by decide) url title)
  | image url title => exact absurd rfl (himage url title)
  | _ => rfl

theorem reads_closing (w : HtmlWriter) {tag : Tag} (himage : ∀ url title, tag ≠ .image url title) :
    Reads (w.closing tag.closing) ((w.closingTags tag).map .tag) := by
  cases tag with
  | paragraph =>
    have hclosing : w.closing .paragraph = if w.bare then [] else "</p>".toList := rfl
    rw [Tag.closing, hclosing, closingTags, elements]
    split_ifs <;> rfl
  | heading level => exact reads_stop (isName_headingName level)
  | list start => cases start <;> rfl
  | tableCell => exact reads_stop w.isName_cellName.1
  | image url title => exact absurd rfl (himage url title)
  | _ => rfl

theorem isVoid_of_mem_elements {w : HtmlWriter} {tag : Tag} {name : Text}
    (h : name ∈ w.elements tag) : isVoid name = false := by
  cases tag with
  | paragraph =>
    rw [elements] at h
    split_ifs at h
    · cases h
    · exact List.mem_singleton.mp h ▸ rfl
  | heading level => exact List.mem_singleton.mp h ▸ isVoid_headingName level
  | tableCell => exact List.mem_singleton.mp h ▸ w.isName_cellName.2
  | list start =>
    cases start with
    | none => exact List.mem_singleton.mp h ▸ rfl
    | some n => exact List.mem_singleton.mp h ▸ rfl
  | codeBlock info =>
    simp only [elements, List.mem_cons, List.not_mem_nil, or_false] at h
    rcases h with rfl | rfl <;> rfl
  | tableHead =>
    simp only [elements, List.mem_cons, List.not_mem_nil, or_false] at h
    rcases h with rfl | rfl <;> rfl
  | image url title => cases h
  | footnoteDefinition => cases h
  | htmlBlock => cases h
  | metadata => cases h
  | _ => exact List.mem_singleton.mp h ▸ rfl

theorem fragment_opening (w : HtmlWriter) {tag : Tag}
    (himage : ∀ url title, tag ≠ .image url title) :
    Fragment opened (w.opening tag) (w.elements tag ++ opened) [] := by
  refine ⟨_, reads_opening w himage, ?_, Html.shown_map_tag _⟩
  have hvoid := fun name => @isVoid_of_mem_elements w tag name
  rw [Html.tags_map_tag, openingTags]
  split
  · rename_i hnone
    rw [hnone]
    split_ifs <;> rfl
  · rename_i innermost outer hsome
    rw [hsome] at hvoid ⊢
    have hinner := hvoid innermost (List.mem_cons_self ..)
    have houter := @Html.nest_starts _ opened
      fun name hname => hvoid name (List.mem_cons_of_mem _ (List.mem_reverse.mp hname))
    rw [List.reverse_reverse] at houter
    exact Html.nest_append houter (by simp [Html.nest, Html.Tag.nest, hinner])

theorem fragment_closing (w : HtmlWriter) {tag : Tag}
    (himage : ∀ url title, tag ≠ .image url title) :
    Fragment (leftInside tag ++ (w.elements tag ++ opened)) (w.closing tag.closing)
      (leftBehind tag ++ opened) [] := by
  refine ⟨_, reads_closing w himage, ?_, Html.shown_map_tag _⟩
  have hbody : Html.nest opened ((leftBehind tag).map (.start · [])) =
      some (leftBehind tag ++ opened) := by
    cases tag <;> rfl
  rw [Html.tags_map_tag, closingTags, ← List.append_assoc]
  exact Html.nest_append (Html.nest_stops _ _) hbody

end HtmlWriter
end Quizdown
