import Quizdown.Proofs.Html.WellFormed

/-! What an author writes as text never becomes markup. The skeleton of an HTML text is what is left
of it if each run of running text and each value in quotes is replaced by a mark. The skeleton of
what the writer makes is the same for any two sequences of events that differ in their strings
only, balanced or not; of a string it shows no more than whether it is empty. -/
set_option autoImplicit false

namespace Quizdown
namespace Html

inductive Mark
  | markup (c : Char)
  | text
  | value
deriving DecidableEq, Repr

inductive Context
  | text (seen : Bool)
  | tag
  | value (quote : Char) (seen : Bool)
deriving DecidableEq, Repr

def Context.step : Context → Char → Context × List Mark
  | text seen, c =>
    if c = '<' then (tag, [.markup c]) else (text true, if seen then [] else [.text])
  | tag, c =>
    if c = '>' then (text false, [.markup c])
    else if c = '"' || c = '\'' then (value c false, [.markup c])
    else (tag, [.markup c])
  | value quote seen, c =>
    if c = quote then (tag, [.markup c]) else (value quote true, if seen then [] else [.value])

def scan : Context → Text → Context × List Mark
  | x, [] => (x, [])
  | x, c :: s =>
    let (next, marks) := x.step c
    let (last, more) := scan next s
    (last, marks ++ more)

/-- The tags and the names of attributes in their places, without the running text and the
values. -/
def skeleton (s : Text) : List Mark := (scan (.text false) s).2

theorem scan_append (x : Context) (s t : Text) :
    scan x (s ++ t) =
      ((scan (scan x s).1 t).1, (scan x s).2 ++ (scan (scan x s).1 t).2) := by
  induction s generalizing x with
  | nil => rfl
  | cons c s ih => simp [scan, ih]

variable {s t : Text}

/-- In a context that its characters do not leave, a text gives one mark, unless it is empty or some
of it has been read. -/
theorem scan_staying {context : Bool → Context} {mark : Mark} (seen : Bool)
    (hs : ∀ c ∈ s, ∀ seen, (context seen).step c = (context true, if seen then [] else [mark])) :
    scan (context seen) s =
      (context (seen || !s.isEmpty), if seen || s.isEmpty then [] else [mark]) := by
  induction s generalizing seen with
  | nil => simp [scan]
  | cons c s ih =>
    obtain ⟨hc, hs⟩ := List.forall_mem_cons.mp hs
    cases seen <;> simp [scan, hc, ih true hs]

theorem scan_text (seen : Bool) (hs : ∀ c ∈ s, c ≠ '<') :
    scan (.text seen) s =
      (.text (seen || !s.isEmpty), if seen || s.isEmpty then [] else [.text]) :=
  scan_staying seen fun c hc _ => if_neg (hs c hc)

theorem scan_tag (hs : ∀ c ∈ s, c ≠ '>' ∧ c ≠ '"' ∧ c ≠ '\'') :
    scan .tag s = (.tag, s.map .markup) := by
  induction s with
  | nil => rfl
  | cons c s ih =>
    obtain ⟨⟨hgt, hdouble, hsingle⟩, hs⟩ := List.forall_mem_cons.mp hs
    simp [scan, Context.step, hgt, hdouble, hsingle, ih hs]

/-! Attributes. -/

def attributeMarks (a : Text × Text) : List Mark :=
  (' ' :: a.1 ++ ['=', '"']).map .markup ++ (if a.2.isEmpty then [] else [.value]) ++ [.markup '"']

theorem isEmpty_escapeText (s : Text) : (escapeText s).isEmpty = s.isEmpty := by
  cases s with
  | nil => rfl
  | cons c s => simpa using Xml.escapeText_ne_nil (List.cons_ne_nil c s)

theorem isEmpty_escapeValue (s : Text) : (escapeValue s).isEmpty = s.isEmpty := by
  cases s with
  | nil => rfl
  | cons c s =>
    rw [escapeValue, List.flatMap_cons]
    split_ifs <;> rfl

theorem scan_escapeText (seen : Bool) (s : Text) :
    scan (.text seen) (escapeText s) =
      (.text (seen || !s.isEmpty), if seen || s.isEmpty then [] else [.text]) := by
  rw [scan_text seen fun c hc => Xml.ne_of_mem_escapeText hc, isEmpty_escapeText]

theorem scan_escapeValue (seen : Bool) (s : Text) :
    scan (.value '"' seen) (escapeValue s) =
      (.value '"' (seen || !s.isEmpty), if seen || s.isEmpty then [] else [.value]) := by
  have hvalue : ∀ c ∈ escapeValue s, ∀ seen, (Context.value '"' seen).step c =
      (.value '"' true, if seen then [] else [.value]) := fun c hc _ =>
    if_neg (Xml.ne_of_mem_escapeValue hc)
  rw [scan_staying seen hvalue, isEmpty_escapeValue]

theorem plain_of_isName {name : Text} (h : isName name = true) :
    ∀ c ∈ name, c ≠ '>' ∧ c ≠ '"' ∧ c ≠ '\'' := fun c hc =>
  have hchar := isNameChar_of_mem h c hc
  ⟨ne_of_isNameChar hchar (by decide), ne_of_isNameChar hchar (by decide),
    ne_of_isNameChar hchar (by decide)⟩

theorem scan_attribute {a : Text × Text} (ha : isName a.1 = true) :
    scan .tag (Element.attributeText a) = (.tag, attributeMarks a) := by
  have hname : ∀ c ∈ ' ' :: a.1 ++ ['='], c ≠ '>' ∧ c ≠ '"' ∧ c ≠ '\'' := by
    intro c hc
    have hcases : c = ' ' ∨ c ∈ a.1 ∨ c = '=' := by simpa [or_assoc] using hc
    rcases hcases with rfl | hc | rfl
    · decide
    · exact plain_of_isName ha c hc
    · decide
  have htext : Element.attributeText a =
      (' ' :: a.1 ++ ['=']) ++ ('"' :: (escapeValue a.2 ++ ['"'])) := by
    simp [Element.attributeText]
  rw [htext, scan_append, scan_tag hname, attributeMarks]
  simp [scan, Context.step, scan_append, scan_escapeValue]

theorem scan_attributes {attributes : List (Text × Text)}
    (h : ∀ a ∈ attributes, isName a.1 = true) :
    scan .tag (attributes.flatMap Element.attributeText) =
      (.tag, attributes.flatMap attributeMarks) := by
  induction attributes with
  | nil => rfl
  | cons a attributes ih =>
    obtain ⟨ha, hmore⟩ := List.forall_mem_cons.mp h
    rw [List.flatMap_cons, scan_append, scan_attribute ha, ih hmore, List.flatMap_cons]

theorem scan_start (seen : Bool) {name : Text} (hname : isName name = true)
    {attributes : List (Text × Text)} (hattributes : ∀ a ∈ attributes, isName a.1 = true) :
    scan (.text seen) ('<' :: (name ++ attributes.flatMap Element.attributeText) ++ ['>']) =
      (.text false, ('<' :: name).map .markup ++ attributes.flatMap attributeMarks ++
        [.markup '>']) := by
  simp [scan, Context.step, scan_append, scan_tag (plain_of_isName hname),
    scan_attributes hattributes]

def Closed (s : Text) : Prop := ∀ seen, ∃ after, (scan (.text seen) s).1 = .text after

namespace Closed

theorem nil : Closed [] := fun seen => ⟨seen, rfl⟩

theorem append (hs : Closed s) (ht : Closed t) : Closed (s ++ t) := by
  intro seen
  obtain ⟨between, hbetween⟩ := hs seen
  obtain ⟨after, hafter⟩ := ht between
  exact ⟨after, by rw [scan_append, hbetween, hafter]⟩

theorem text (hs : ∀ c ∈ s, c ≠ '<') : Closed s := fun seen => ⟨_, by rw [scan_text seen hs]⟩

theorem start {name : Text} (hname : isName name = true) {attributes : List (Text × Text)}
    (hattributes : ∀ a ∈ attributes, isName a.1 = true) :
    Closed ('<' :: (name ++ attributes.flatMap Element.attributeText) ++ ['>']) := fun seen =>
  ⟨false, by rw [scan_start seen hname hattributes]⟩

theorem bareStart {name : Text} (hname : isName name = true) : Closed ('<' :: name ++ ['>']) := by
  have hstart : Closed ('<' :: (name ++ [].flatMap Element.attributeText) ++ ['>']) :=
    start hname (by simp)
  simpa using hstart

theorem stop {name : Text} (hname : isName name = true) :
    Closed ('<' :: ('/' :: name) ++ ['>']) := fun _ =>
  ⟨false, by simp [scan, Context.step, scan_append, scan_tag (plain_of_isName hname)]⟩

end Closed
end Html

/-! The strings of an event. -/

/-- What the writer shows of a string outside running text and values: whether it is empty. -/
def Text.form (s : Text) : Text := if s.isEmpty then [] else ['x']

@[simp] theorem Text.isEmpty_form (s : Text) : (Text.form s).isEmpty = s.isEmpty := by
  cases s <;> rfl

def Tag.form : Tag → Tag
  | codeBlock info => codeBlock (info.map Text.form)
  | link url title => link (Text.form url) (Text.form title)
  | image url title => image (Text.form url) (Text.form title)
  | tag => tag

def Event.form : Event → Event
  | start tag => start tag.form
  | text s => text (Text.form s)
  | code s => code (Text.form s)
  | footnoteReference _ => footnoteReference []
  | inlineMath _ => inlineMath []
  | displayMath _ => displayMath []
  | e => e

open Html (Mark Context scan skeleton Closed isName)

namespace HtmlWriter

variable {w : HtmlWriter} {x : Context} {e : Event}

/-- Where the reader is between two events: in running text, or inside an image in the value that
its start leaves open. -/
inductive Fits (w : HtmlWriter) : Context → Prop
  | text (seen : Bool) : Fits w (.text seen)
  | alt (inside : w.images ≠ 0) (seen : Bool) : Fits w (.value '"' seen)

theorem targetMarks_form (name url title : Text) :
    (targetAttributes name (Text.form url) (Text.form title)).flatMap Html.attributeMarks =
      (targetAttributes name url title).flatMap Html.attributeMarks := by
  cases url <;> cases title <;> rfl

theorem scan_target_form {name : Text} (hname : isName name = true) (url title : Text) :
    scan .tag (target name (Text.form url) (Text.form title)) =
      scan .tag (target name url title) := by
  rw [target_eq, target_eq, Html.scan_attributes (isName_targetAttributes hname _ _),
    Html.scan_attributes (isName_targetAttributes hname url title), targetMarks_form]

theorem scan_codeOpening_form (seen : Bool) (info : Option Text) :
    scan (.text seen) (codeOpening (info.map Text.form)) =
      scan (.text seen) (codeOpening info) := by
  rcases info with _ | _ | ⟨c, info⟩
  · rfl
  · rfl
  · -- the value is never empty, whatever the language is
    have hmarks (info : Text) : (codeAttributes info).flatMap Html.attributeMarks =
        Html.attributeMarks ("class".toList, "language-".toList) := by
      simp [codeAttributes, Html.attributeMarks]
    have hname : isName "code".toList = true := by decide
    have hpre : (scan (.text seen) "<pre>".toList).1 = .text false := rfl
    have hscan {info : Text} (h : info ≠ []) : scan (.text seen) (codeOpening (some info)) =
        (.text false, (scan (.text seen) "<pre>".toList).2 ++ (("<code".toList.map .markup) ++
          Html.attributeMarks ("class".toList, "language-".toList) ++ [.markup '>'])) := by
      rw [codeOpening_eq h, Html.scan_append, hpre,
        Html.scan_start false hname (isName_codeAttributes info), hmarks]
      rfl
    exact (hscan (by simp [Text.form])).trans (hscan (by simp)).symm

theorem closed_opening (w : HtmlWriter) {tag : Tag} (himage : ∀ url title, tag ≠ .image url title) :
    Closed (w.opening tag) := by
  have hplain : ∀ name : Text, isName name = true → Closed ('<' :: name ++ ['>']) :=
    fun _ => .bareStart
  cases tag with
  | paragraph =>
    have hopening : w.opening .paragraph = if w.bare then
        (if w.hadParagraph then "<br />".toList else []) else "<p>".toList := rfl
    rw [hopening]
    split_ifs with hbare hparagraph
    · exact fun _ => ⟨false, rfl⟩
    · exact .nil
    · exact hplain "p".toList (by decide)
  | heading level => exact hplain _ (isName_headingName level)
  | codeBlock info =>
    rcases info with _ | _ | ⟨c, info⟩
    · exact fun _ => ⟨false, rfl⟩
    · exact fun _ => ⟨false, rfl⟩
    · have hopening : w.opening (.codeBlock (some (c :: info))) = codeOpening (some (c :: info)) :=
        rfl
      rw [hopening, codeOpening_eq (by simp)]
      exact (hplain "pre".toList (by decide)).append
        (.start (by decide) (isName_codeAttributes _))
  | list start =>
    cases start with
    | none => exact hplain "ul".toList (by decide)
    | some n =>
      rw [listOpening_eq]
      exact .start (by decide) (isName_listAttributes n)
  | tableHead => exact fun _ => ⟨false, rfl⟩
  | tableCell =>
    change Closed ('<' :: w.cellName ++ cellStyle w.columns[w.cell]? ++ ['>'])
    rw [cellStyle_eq]
    exact .start w.isName_cellName.1 (isName_cellAttributes _)
  | link url title =>
    have hlink : Closed ('<' :: ("a".toList ++
        (targetAttributes "href".toList url title).flatMap Element.attributeText) ++ ['>']) :=
      .start (by decide) (isName_targetAttributes (by decide) url title)
    rw [← target_eq] at hlink
    exact hlink
  | image url title => exact absurd rfl (himage url title)
  | blockQuote => exact hplain "blockquote".toList (by decide)
  | item => exact hplain "li".toList (by decide)
  | table columns => exact hplain "table".toList (by decide)
  | tableRow => exact hplain "tr".toList (by decide)
  | emphasis => exact hplain "em".toList (by decide)
  | strong => exact hplain "strong".toList (by decide)
  | strikethrough => exact hplain "s".toList (by decide)
  | superscript => exact hplain "sup".toList (by decide)
  | subscript => exact hplain "sub".toList (by decide)
  | definitionList => exact hplain "dl".toList (by decide)
  | definitionTitle => exact hplain "dt".toList (by decide)
  | definition => exact hplain "dd".toList (by decide)
  | footnoteDefinition | htmlBlock | metadata => exact .nil

theorem closed_closing (w : HtmlWriter) (tag : TagEnd) : Closed (w.closing tag) := by
  have hplain : ∀ name : Text, isName name = true → Closed ('<' :: ('/' :: name) ++ ['>']) :=
    fun _ => .stop
  cases tag with
  | paragraph =>
    have hclosing : w.closing .paragraph = if w.bare then [] else "</p>".toList := rfl
    rw [hclosing]
    split_ifs
    · exact .nil
    · exact hplain "p".toList (by decide)
  | heading level => exact hplain _ (isName_headingName level)
  | list ordered => cases ordered <;> exact fun _ => ⟨false, rfl⟩
  | tableCell => exact hplain _ w.isName_cellName.1
  -- without its start, the end of an image is running text
  | image =>
    change Closed "\" />".toList
    exact .text (by simp)
  | footnoteDefinition | htmlBlock | metadata => exact .nil
  | _ => exact fun _ => ⟨false, rfl⟩

/-! One event, then all of them. -/

theorem next_form (w : HtmlWriter) (e : Event) : w.next e.form = w.next e := by
  cases e with
  | start tag => cases tag <;> rfl
  | _ => rfl

theorem scan_escapeText_form (seen : Bool) (s : Text) :
    scan (.text seen) (escapeText (Text.form s)) = scan (.text seen) (escapeText s) := by
  rw [Html.scan_escapeText, Html.scan_escapeText, Text.isEmpty_form]

theorem scan_escapeValue_form (hx : w.Fits x) (s : Text) :
    scan x (escapeValue (Text.form s)) = scan x (escapeValue s) ∧
      w.Fits (scan x (escapeValue s)).1 := by
  cases hx with
  | text seen =>
    have hvalue (s : Text) := Html.scan_text seen (s := escapeValue s) fun c hc =>
      (Html.not_angle_of_mem_escapeValue hc).1
    rw [hvalue, hvalue, Html.isEmpty_escapeValue, Html.isEmpty_escapeValue, Text.isEmpty_form]
    exact ⟨rfl, .text _⟩
  | alt inside seen =>
    rw [Html.scan_escapeValue, Html.scan_escapeValue, Text.isEmpty_form]
    exact ⟨rfl, .alt inside _⟩

theorem scan_opening_form (w : HtmlWriter) (tag : Tag) (seen : Bool) :
    scan (.text seen) (w.opening tag.form) = scan (.text seen) (w.opening tag) := by
  cases tag with
  | codeBlock info => exact scan_codeOpening_form seen info
  | link url title =>
    change scan (.text seen)
        ("<a".toList ++ target "href".toList (Text.form url) (Text.form title) ++ ['>']) =
      scan (.text seen) ("<a".toList ++ target "href".toList url title ++ ['>'])
    have hname : isName "href".toList = true := by decide
    have hbegin : (scan (.text seen) "<a".toList).1 = .tag := rfl
    simp only [Html.scan_append, hbegin, scan_target_form hname]
  | image url title =>
    change scan (.text seen)
        ("<img".toList ++ target "src".toList (Text.form url) (Text.form title) ++
          " alt=\"".toList) =
      scan (.text seen) ("<img".toList ++ target "src".toList url title ++ " alt=\"".toList)
    have hname : isName "src".toList = true := by decide
    have hbegin : (scan (.text seen) "<img".toList).1 = .tag := rfl
    simp only [Html.scan_append, hbegin, scan_target_form hname]
  | _ => rfl

theorem Fits.mono {v : HtmlWriter} (hx : w.Fits x) (h : w.images ≠ 0 → v.images ≠ 0) :
    v.Fits x := by
  cases hx with
  | text seen => exact .text seen
  | alt inside seen => exact .alt (h inside) seen

theorem scan_imageOpening (w : HtmlWriter) (url title : Text) (seen : Bool) :
    (scan (.text seen) (w.opening (.image url title))).1 = .value '"' false := by
  change (scan (.text seen)
    ("<img".toList ++ target "src".toList url title ++ " alt=\"".toList)).1 = _
  have hname : isName "src".toList = true := by decide
  have hbegin : (scan (.text seen) "<img".toList).1 = .tag := rfl
  rw [Html.scan_append, Html.scan_append, hbegin, target_eq,
    Html.scan_attributes (isName_targetAttributes hname url title)]
  rfl

theorem scan_emit_outside (himages : w.images = 0) (hraw : e.isRaw = false) (seen : Bool) :
    scan (.text seen) (w.emit e.form) = scan (.text seen) (w.emit e) ∧
      (w.next e).Fits (scan (.text seen) (w.emit e)).1 := by
  have hclosed {s : Text} (hs : Closed s) : (w.next e).Fits (scan (.text seen) s).1 := by
    obtain ⟨after, hafter⟩ := hs seen
    exact hafter ▸ .text after
  have hemit (f : Event) : w.emit f = ({ w with images := 0 } : HtmlWriter).emit f := by
    rw [← himages]
  have hrunning (s : Text) : Closed (escapeText s) := .text fun c hc => Xml.ne_of_mem_escapeText hc
  cases e with
  | start tag =>
    change scan _ (w.emit (.start tag.form)) = _ ∧ _
    rw [emit_start himages, emit_start himages]
    refine ⟨scan_opening_form w tag seen, ?_⟩
    rcases tag.image_or with ⟨url, title, rfl⟩ | hno
    · rw [scan_imageOpening, next_start himages]
      exact .alt Nat.one_ne_zero false
    · exact hclosed (closed_opening w hno)
  | stop tag =>
    rw [emit_stop himages]
    exact ⟨congrArg _ (emit_stop himages), hclosed (closed_closing w tag)⟩
  | html s => cases hraw
  | inlineHtml s => cases hraw
  | text s =>
    rw [hemit, hemit]
    exact ⟨scan_escapeText_form seen s, hclosed (hrunning s)⟩
  | code s =>
    rw [hemit, hemit]
    change scan _ ("<code>".toList ++ escapeText (Text.form s) ++ "</code>".toList) =
      scan _ ("<code>".toList ++ escapeText s ++ "</code>".toList) ∧ _
    have hbegin : (scan (.text seen) "<code>".toList).1 = .text false := rfl
    refine ⟨?_, hclosed
      (.append (.append (fun _ => ⟨false, rfl⟩) (hrunning s)) fun _ => ⟨false, rfl⟩)⟩
    simp only [Html.scan_append, hbegin, scan_escapeText_form]
  | taskMarker checked =>
    have hbox : Closed (checkBox checked) := by cases checked <;> exact fun _ => ⟨false, rfl⟩
    rw [hemit, hemit]
    refine ⟨rfl, hclosed ?_⟩
    change Closed (if w.forItem then [] else checkBox checked)
    split_ifs
    · exact .nil
    · exact hbox
  | softBreak =>
    rw [hemit, hemit]
    exact ⟨rfl, hclosed (.text (s := ['\n']) (by simp))⟩
  | hardBreak | rule =>
    rw [hemit, hemit]
    exact ⟨rfl, .text false⟩
  | footnoteReference s | inlineMath s | displayMath s =>
    rw [hemit, hemit]
    exact ⟨rfl, .text seen⟩

theorem scan_emit_inside (himages : w.images ≠ 0) (hx : w.Fits x) :
    scan x (w.emit e.form) = scan x (w.emit e) ∧ (w.next e).Fits (scan x (w.emit e)).1 := by
  rw [emit_inside himages, emit_inside himages]
  cases e with
  | start tag =>
    refine ⟨rfl, hx.mono fun _ => ?_⟩
    rw [next_start_inside himages]
    exact deeper_images himages
  | stop tag =>
    refine ⟨rfl, ?_⟩
    by_cases hlast : tag = .image ∧ w.images = 1
    · -- the quote ends the value that the outermost image left open
      obtain ⟨rfl, hone⟩ := hlast
      have hemit : w.emitAlt (.stop .image) = "\" />".toList := if_pos hone
      rw [hemit]
      cases hx with
      | text seen =>
        rw [Html.scan_text seen (by simp)]
        exact .text _
      | alt inside seen => exact .text false
    · have hemit : w.emitAlt (.stop tag) = [] := by
        cases tag with
        | image => exact if_neg fun hone => hlast ⟨rfl, hone⟩
        | _ => rfl
      rw [hemit]
      refine hx.mono fun _ => ?_
      change (if w.images = 0 then w.afterStop tag else _).images ≠ 0
      rw [if_neg himages]
      cases tag with
      | image =>
        have hone : w.images ≠ 1 := fun hone => hlast ⟨rfl, hone⟩
        change w.images - 1 ≠ 0
        omega
      | _ => exact himages
  | text s => exact scan_escapeValue_form hx s
  | code s => exact scan_escapeValue_form hx s
  | softBreak => exact ⟨rfl, (scan_escapeValue_form hx [' ']).2⟩
  | hardBreak => exact ⟨rfl, (scan_escapeValue_form hx [' ']).2⟩
  | _ => exact ⟨rfl, hx⟩

/-- What the reader sees of one event, wherever the writer is. -/
theorem scan_emit (hx : w.Fits x) (hraw : e.isRaw = false) :
    scan x (w.emit e.form) = scan x (w.emit e) ∧ (w.next e).Fits (scan x (w.emit e)).1 := by
  by_cases himages : w.images = 0
  · cases hx with
    | text seen => exact scan_emit_outside himages hraw seen
    | alt inside seen => exact absurd himages inside
  · exact scan_emit_inside himages hx

theorem scan_render {es : List Event} (hx : w.Fits x) (hraw : ∀ e ∈ es, e.isRaw = false) :
    scan x (w.render (es.map Event.form)) = scan x (w.render es) := by
  induction es generalizing w x with
  | nil => rfl
  | cons e es ih =>
    obtain ⟨he, hes⟩ := List.forall_mem_cons.mp hraw
    obtain ⟨hemit, hnext⟩ := scan_emit hx he
    rw [List.map_cons, render, render, Html.scan_append, Html.scan_append, hemit, next_form,
      ih hnext hes]

/-- Two sequences of events without raw HTML that differ in their strings only, and not in which of
these are empty, are written with the same tags and the same attributes in the same places. They
need not be balanced. -/
theorem skeleton_render (w : HtmlWriter) {es fs : List Event}
    (hes : ∀ e ∈ es, e.isRaw = false) (hfs : ∀ f ∈ fs, f.isRaw = false)
    (h : es.map Event.form = fs.map Event.form) :
    skeleton (w.render es) = skeleton (w.render fs) := by
  have hform {es : List Event} (hes : ∀ e ∈ es, e.isRaw = false) :
      skeleton (w.render (es.map Event.form)) = skeleton (w.render es) :=
    congrArg Prod.snd (scan_render (.text false) hes)
  rw [← hform hes, ← hform hfs, h]

theorem skeleton_render_hostile :
    let filled (url title alt code : Text) : List Event :=
      [.start .paragraph, .text alt, .start (.link url title), .code code, .stop .emphasis,
        .start (.image url title), .text alt, .start (.codeBlock (some code)), .stop .image,
        .stop .image, .start (.codeBlock (some code)), .start (.image url title), .code code]
    let plain := block.render (filled "u".toList "t".toList "a".toList "c".toList)
    let hostile := block.render (filled "\" onload=\"f()".toList "'><script>".toList
      "<b>&\" />".toList "</code></p>-->".toList)
    plain ≠ hostile ∧ skeleton plain = skeleton hostile := by
  intro filled plain hostile
  exact ⟨by decide, block.skeleton_render (by decide) (by decide) rfl⟩

end HtmlWriter
end Quizdown
