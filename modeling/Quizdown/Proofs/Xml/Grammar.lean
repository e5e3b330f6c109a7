import Quizdown.Proofs.Xml.RoundTrip

/-! What is written is XML: an element is written with a start and an end of one name around escaped
text and elements, and its document has no other root. Whether each character may stand in XML
depends on the texts in the element alone. -/
set_option autoImplicit false

namespace Quizdown
namespace Xml

def isChar (c : Char) : Bool :=
  c == '\t' || c == '\n' || c == '\r' || (0x20 ≤ c.toNat && c.toNat ≤ 0xD7FF) ||
    (0xE000 ≤ c.toNat && c.toNat ≤ 0xFFFD) || 0x10000 ≤ c.toNat

def Allowed (s : Text) : Prop := ∀ c ∈ s, isChar c = true

instance (s : Text) : Decidable (Allowed s) := List.decidableBAll _ s

/-! The grammar of documents, as far as the writer makes use of it: it is stricter than that of
XML, which has other kinds of content and of quotes, and more than one way to leave blanks. -/

/-- What text never contains, and values contain no quotes either. Without `>` no text holds the
`]]>` that ends a section. -/
def textMarkup : Text := "<>&".toList

def valueMarkup : Text := "<>&'\"".toList

/-- Text in which references to predefined entities stand for the characters `markup`. -/
inductive Escaped (markup : Text) : Text → Prop
  | nil : Escaped markup []
  | char {c : Char} {s : Text} (plain : c ∉ markup) (rest : Escaped markup s) :
      Escaped markup (c :: s)
  | reference {name s : Text} (declared : name ∈ entities.map Prod.fst)
      (rest : Escaped markup s) : Escaped markup ('&' :: (name ++ ';' :: s))

inductive Attributes : Texts → Text → Prop
  | nil : Attributes [] []
  | cons {name value s : Text} {names : Texts} (named : isName name = true) (fresh : name ∉ names)
      (escaped : Escaped valueMarkup value) (rest : Attributes names s) :
      Attributes (name :: names) (' ' :: (name ++ '=' :: '"' :: (value ++ '"' :: s)))

mutual

inductive IsElement : Text → Prop
  | empty {tag attributes : Text} {names : Texts} (named : isName tag = true)
      (attributed : Attributes names attributes) :
      IsElement ('<' :: (tag ++ (attributes ++ ['/', '>'])))
  | paired {tag attributes content : Text} {names : Texts} (named : isName tag = true)
      (attributed : Attributes names attributes) (inside : IsContent content) :
      IsElement
        ('<' :: (tag ++ (attributes ++ '>' :: (content ++ '<' :: '/' :: (tag ++ ['>'])))))

inductive IsContent : Text → Prop
  | text {s : Text} (escaped : Escaped textMarkup s) : IsContent s
  | element {s e rest : Text} (escaped : Escaped textMarkup s) (element : IsElement e)
      (behind : IsContent rest) : IsContent (s ++ (e ++ rest))

end

/-- A declaration and one root, with white space around the root. -/
def IsDocument (s : Text) : Prop :=
  ∃ before root after,
    s = "<?xml version=\"1.0\" encoding=\"UTF-8\"?>".toList ++ before ++ root ++ after ∧
      (before ++ after).all isSpace = true ∧ IsElement root

structure WellFormed (s : Text) : Prop where
  document : IsDocument s
  allowed : Allowed s

theorem Escaped.append {markup s t : Text} (hs : Escaped markup s) (ht : Escaped markup t) :
    Escaped markup (s ++ t) := by
  induction hs with
  | nil => exact ht
  | char plain _ ih => exact .char plain ih
  | reference declared _ ih => simpa using Escaped.reference declared ih

theorem Escaped.of_forall {markup s : Text} (h : ∀ c ∈ s, c ∉ markup) : Escaped markup s := by
  induction s with
  | nil => exact .nil
  | cons c s ih =>
    obtain ⟨hc, hs⟩ := List.forall_mem_cons.mp h
    exact .char hc (ih hs)

theorem escaped_flatMap {markup : Text} {f : Char → Text} (h : ∀ c, Escaped markup (f c))
    (s : Text) : Escaped markup (s.flatMap f) := by
  induction s with
  | nil => exact .nil
  | cons c s ih => exact (h c).append ih

theorem escaped_escapeText (s : Text) : Escaped textMarkup (escapeText s) := by
  refine escaped_flatMap (fun c => ?_) s
  split_ifs with hlt hgt hamp
  · exact @Escaped.reference _ "lt".toList [] (by decide) .nil
  · exact @Escaped.reference _ "gt".toList [] (by decide) .nil
  · exact @Escaped.reference _ "amp".toList [] (by decide) .nil
  · exact .char (by simp [textMarkup, hlt, hgt, hamp]) .nil

theorem escaped_escapeValue (s : Text) : Escaped valueMarkup (escapeValue s) := by
  refine escaped_flatMap (fun c => ?_) s
  split_ifs with hlt hgt hamp hsingle hdouble
  · exact @Escaped.reference _ "lt".toList [] (by decide) .nil
  · exact @Escaped.reference _ "gt".toList [] (by decide) .nil
  · exact @Escaped.reference _ "amp".toList [] (by decide) .nil
  · exact @Escaped.reference _ "apos".toList [] (by decide) .nil
  · exact @Escaped.reference _ "quot".toList [] (by decide) .nil
  · exact .char (by simp [valueMarkup, hlt, hgt, hamp, hsingle, hdouble]) .nil

theorem escaped_newLine (depth : Nat) : Escaped textMarkup (Element.newLine depth) := by
  refine .of_forall fun c hc => ?_
  have hspace := List.all_eq_true.mp (all_isSpace_newLine depth) c hc
  rcases isSpace_iff.mp hspace with rfl | rfl | rfl | rfl <;> decide

end Xml

/-- Names are names, no attribute is repeated, and `p` holds of every text in the element. -/
inductive Element.Sound (p : Text → Prop) : Element → Prop
  | mk {tag : Text} {attributes : List (Text × Text)} {text : Text} {children : List Element}
      (named : Xml.isName tag = true)
      (attributesNamed : ∀ a ∈ attributes, Xml.isName a.1 = true)
      (distinct : (attributes.map Prod.fst).Nodup)
      (tagMeets : p tag) (attributesMeet : ∀ a ∈ attributes, p a.1 ∧ p a.2) (textMeets : p text)
      (childrenSound : ∀ c ∈ children, c.Sound p) :
      Sound p (.mk tag attributes text children)

theorem Element.sound_mk_iff {p : Text → Prop} {tag : Text} {attributes : List (Text × Text)}
    {text : Text} {children : List Element} (named : Xml.isName tag = true)
    (attributesNamed : ∀ a ∈ attributes, Xml.isName a.1 = true)
    (distinct : (attributes.map Prod.fst).Nodup) : (mk tag attributes text children).Sound p ↔
      p tag ∧ (∀ a ∈ attributes, p a.1 ∧ p a.2) ∧ p text ∧ ∀ c ∈ children, c.Sound p :=
  ⟨fun (.mk _ _ _ htag hattributes htext hchildren) => ⟨htag, hattributes, htext, hchildren⟩,
    fun ⟨htag, hattributes, htext, hchildren⟩ =>
      .mk named attributesNamed distinct htag hattributes htext hchildren⟩

namespace Xml

theorem attributes_flatMap {attributes : List (Text × Text)}
    (hnamed : ∀ a ∈ attributes, isName a.1 = true) (hdistinct : (attributes.map Prod.fst).Nodup) :
    Attributes (attributes.map Prod.fst) (attributes.flatMap Element.attributeText) := by
  induction attributes with
  | nil => exact .nil
  | cons a attributes ih =>
    rw [List.map_cons, List.nodup_cons] at hdistinct
    rw [List.forall_mem_cons] at hnamed
    have hrest := ih hnamed.2 hdistinct.2
    simpa [Element.attributeText] using
      Attributes.cons hnamed.1 hdistinct.1 (escaped_escapeValue a.2) hrest

theorem isContent_bodies {es : List Element} {depth : Nat}
    (hes : ∀ e ∈ es, IsElement (e.body depth)) {s t : Text} (hs : Escaped textMarkup s)
    (ht : Escaped textMarkup t) (afterText : Bool) :
    IsContent (s ++ (Element.bodies depth afterText es ++ t)) := by
  induction es generalizing s afterText with
  | nil => exact .text (hs.append ht)
  | cons e es ih =>
    obtain ⟨he, hes⟩ := List.forall_mem_cons.mp hes
    have hline : Escaped textMarkup (if afterText then [] else Element.newLine depth) := by
      cases afterText
      · exact escaped_newLine depth
      · exact .nil
    have hrest := ih hes .nil false
    simpa [Element.bodies] using IsContent.element (hs.append hline) he hrest

theorem isElement_body {p : Text → Prop} {e : Element} (h : e.Sound p) (depth : Nat) :
    IsElement (e.body depth) := by
  induction h generalizing depth with
  | @mk tag attributes text children named attributesNamed distinct _ _ _ _ ih =>
    have hattributes := attributes_flatMap attributesNamed distinct
    by_cases hempty : text = [] ∧ children = []
    · simpa [Element.body, hempty] using IsElement.empty named hattributes
    · have hline : Escaped textMarkup (if children.isEmpty then [] else Element.newLine depth) := by
        split
        · exact .nil
        · exact escaped_newLine depth
      have hinside := isContent_bodies (fun c hc => ih c hc (depth + 1)) (escaped_escapeText text)
        hline (!text.isEmpty)
      rw [Element.body_of_content hempty]
      simpa [Element.closing] using IsElement.paired named hattributes hinside

theorem isDocument_document {p : Text → Prop} {e : Element} (h : e.Sound p) :
    IsDocument e.document :=
  ⟨Element.newLine 0, e.body 0, ['\n'], rfl, rfl, isElement_body h 0⟩

variable {s t : Text}

theorem allowed_append_iff : Allowed (s ++ t) ↔ Allowed s ∧ Allowed t := List.forall_mem_append

theorem allowed_cons_iff {c : Char} : Allowed (c :: s) ↔ isChar c = true ∧ Allowed s :=
  List.forall_mem_cons

/-- Escaping brings in letters and signs only, and it leaves out none that is not allowed. -/
theorem allowed_flatMap_iff {f : Char → Text} (h : ∀ c, Allowed (f c) ↔ isChar c = true) :
    Allowed (s.flatMap f) ↔ Allowed s := by
  induction s with
  | nil => exact Iff.rfl
  | cons c s ih => rw [List.flatMap_cons, allowed_append_iff, allowed_cons_iff, h, ih]

theorem allowed_escapeText_iff : Allowed (escapeText s) ↔ Allowed s := by
  refine allowed_flatMap_iff fun c => ?_
  split_ifs with hlt hgt hamp
  · rw [hlt]; decide
  · rw [hgt]; decide
  · rw [hamp]; decide
  · simp [Allowed]

theorem allowed_escapeValue_iff : Allowed (escapeValue s) ↔ Allowed s := by
  refine allowed_flatMap_iff fun c => ?_
  split_ifs with hlt hgt hamp hsingle hdouble
  · rw [hlt]; decide
  · rw [hgt]; decide
  · rw [hamp]; decide
  · rw [hsingle]; decide
  · rw [hdouble]; decide
  · simp [Allowed]

theorem allowed_newLine (depth : Nat) : Allowed (Element.newLine depth) := by
  intro c hc
  have hspace := List.all_eq_true.mp (all_isSpace_newLine depth) c hc
  rcases isSpace_iff.mp hspace with rfl | rfl | rfl | rfl <;> decide

theorem allowed_attributes_iff {attributes : List (Text × Text)} :
    Allowed (attributes.flatMap Element.attributeText) ↔
      ∀ a ∈ attributes, Allowed a.1 ∧ Allowed a.2 := by
  induction attributes with
  | nil => simp [Allowed]
  | cons a attributes ih =>
    have hsigns : Allowed [' ', '=', '"'] := by decide
    simp only [allowed_cons_iff] at hsigns
    rw [List.flatMap_cons, allowed_append_iff, ih, List.forall_mem_cons, Element.attributeText]
    simp [allowed_append_iff, allowed_cons_iff, allowed_escapeValue_iff, hsigns]

theorem allowed_bodies_iff {es : List Element} {depth : Nat} {afterText : Bool} :
    Allowed (Element.bodies depth afterText es) ↔ ∀ e ∈ es, Allowed (e.body depth) := by
  induction es generalizing afterText with
  | nil => simp [Element.bodies, Allowed]
  | cons e es ih =>
    have hline : Allowed (if afterText then [] else Element.newLine depth) := by
      cases afterText
      · exact allowed_newLine depth
      · exact List.forall_mem_nil _
    simp [Element.bodies, allowed_append_iff, hline, ih]

theorem allowed_closing_iff {tag : Text} {children : List Element} {depth : Nat} :
    Allowed (Element.closing depth tag children) ↔ Allowed tag := by
  have hline : Allowed (if children.isEmpty then [] else Element.newLine depth) := by
    split
    · exact List.forall_mem_nil _
    · exact allowed_newLine depth
  have hsigns : Allowed ['<', '/', '>'] := by decide
  simp only [allowed_cons_iff] at hsigns
  rw [Element.closing, allowed_append_iff, and_iff_right hline]
  simp [allowed_append_iff, allowed_cons_iff, hsigns]

theorem allowed_body_iff {tag : Text} {attributes : List (Text × Text)} {text : Text}
    {children : List Element} {depth : Nat} :
    Allowed ((Element.mk tag attributes text children).body depth) ↔
      Allowed tag ∧ (∀ a ∈ attributes, Allowed a.1 ∧ Allowed a.2) ∧ Allowed text ∧
        ∀ c ∈ children, Allowed (c.body (depth + 1)) := by
  have hsigns : Allowed ['<', '>', '/'] := by decide
  simp only [allowed_cons_iff] at hsigns
  by_cases hempty : text = [] ∧ children = []
  · obtain ⟨rfl, rfl⟩ := hempty
    simp [Element.body, allowed_append_iff, allowed_cons_iff, allowed_attributes_iff, hsigns]
  · rw [Element.body_of_content hempty]
    simp only [allowed_append_iff, allowed_cons_iff, allowed_attributes_iff,
      allowed_escapeText_iff, allowed_bodies_iff, allowed_closing_iff, hsigns, true_and]
    -- the tag stands in the end as well
    constructor
    · rintro ⟨htag, hattributes, htext, hchildren, -⟩
      exact ⟨htag, hattributes, htext, hchildren⟩
    · rintro ⟨htag, hattributes, htext, hchildren⟩
      exact ⟨htag, hattributes, htext, hchildren, htag⟩

theorem allowed_body_iff_sound {p : Text → Prop} {e : Element} (h : e.Sound p) (depth : Nat) :
    Allowed (e.body depth) ↔ e.Sound Allowed := by
  induction h generalizing depth with
  | @mk tag attributes text children named attributesNamed distinct _ _ _ _ ih =>
    rw [allowed_body_iff, Element.sound_mk_iff named attributesNamed distinct]
    exact and_congr_right fun _ => and_congr_right fun _ => and_congr_right fun _ =>
      forall₂_congr fun c hc => ih c hc (depth + 1)

/-- Whether a document is well formed is seen from the texts in the element. -/
theorem wellFormed_document_iff {p : Text → Prop} {e : Element} (h : e.Sound p) :
    WellFormed e.document ↔ e.Sound Allowed := by
  have hdeclaration : Allowed Element.declaration := by decide
  have hend : Allowed ['\n'] := by decide
  have hdocument : Allowed e.document ↔ e.Sound Allowed := by
    simp only [Element.document, allowed_append_iff, allowed_body_iff_sound h, hdeclaration, hend,
      allowed_newLine, true_and, and_true]
  rw [← hdocument]
  exact ⟨fun hxml => hxml.allowed, fun hallowed => ⟨isDocument_document h, hallowed⟩⟩

end Xml
end Quizdown
