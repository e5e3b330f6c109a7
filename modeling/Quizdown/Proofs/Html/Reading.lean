import Quizdown.Html.Reader
import Quizdown.Proofs.Xml.Token

/-! What is written is read back, whatever follows it: escaped text as its characters, a tag as its
name and its attributes. -/
set_option autoImplicit false

namespace Quizdown
namespace Html

theorem read_append (p : Position) (s t : Text) :
    read p (s ++ t) =
      (read p s).bind fun r => (read r.1 t).map fun q => (q.1, r.2 ++ q.2) := by
  induction s generalizing p with
  | nil => cases h : read p t <;> simp [read, h]
  | cons c s ih =>
    rw [List.cons_append, read, read]
    cases p.step c with
    | none => rfl
    | some next =>
      dsimp only
      rw [ih]
      cases read next.1 s with
      | none => rfl
      | some r => cases h : read r.1 t <;> simp [h]

def Reads (s : Text) (pieces : List Piece) : Prop := read .text s = some (.text, pieces)

theorem pieces?_eq_some_iff {s : Text} {pieces : List Piece} :
    pieces? s = some pieces ↔ Reads s pieces := by
  rw [pieces?, Reads]
  split
  · rename_i ps h
    simp [h]
  · rename_i h
    simp only [reduceCtorEq, false_iff]
    exact h pieces

theorem tags_append (ps qs : List Piece) : tags (ps ++ qs) = tags ps ++ tags qs :=
  List.filterMap_append

theorem tags_chars (s : Text) : tags (s.map .char) = [] := by simp [tags, Piece.tag?]

theorem reads_nil : Reads [] [] := rfl

theorem Reads.append {s t : Text} {ps qs : List Piece} (hs : Reads s ps) (ht : Reads t qs) :
    Reads (s ++ t) (ps ++ qs) := by
  unfold Reads at *
  rw [read_append, hs, Option.bind_some, ht]
  rfl

theorem reads_char {c : Char} (hlt : c ≠ '<') (hgt : c ≠ '>') (hamp : c ≠ '&') :
    Reads [c] [.char c] := by
  simp [Reads, read, Position.step, hlt, hgt, hamp]

theorem reads_escapeText (s : Text) : Reads (escapeText s) (s.map .char) := by
  induction s with
  | nil => rfl
  | cons c s ih =>
    change Reads _ ([.char c] ++ s.map .char)
    refine Reads.append ?_ ih
    dsimp only
    split_ifs with hlt hgt hamp
    · subst hlt
      rfl
    · subst hgt
      rfl
    · subst hamp
      rfl
    · exact reads_char hlt hgt hamp

theorem read_tag {s : Text} (h : ∀ c ∈ s, c ≠ '<' ∧ c ≠ '>') (content : Text) :
    read (.tag content) s = some (.tag (s.reverse ++ content), []) := by
  induction s generalizing content with
  | nil => rfl
  | cons c s ih =>
    obtain ⟨⟨hlt, hgt⟩, hs⟩ := List.forall_mem_cons.mp h
    simp [read, Position.step, hlt, hgt, ih hs]

theorem reads_tag {s : Text} {t : Tag} (hs : ∀ c ∈ s, c ≠ '<' ∧ c ≠ '>')
    (ht : Tag.ofText? s = some t) : Reads ('<' :: s ++ ['>']) [.tag t] := by
  have hopen : read .text ['<'] = some (.tag [], []) := rfl
  have hclose : read (.tag s.reverse) ['>'] = some (.text, [.tag t]) := by
    simp [read, Position.step, ht]
  change read .text (['<'] ++ s ++ ['>']) = some (.text, [.tag t])
  rw [read_append, read_append, hopen, Option.bind_some, read_tag hs]
  simp [hclose]

theorem ne_of_isNameChar {c d : Char} (hc : isNameChar c = true) (hd : isNameChar d = false) :
    c ≠ d := by
  rintro rfl
  rw [hc] at hd
  cases hd

theorem isNameChar_of_mem {name : Text} (h : isName name = true) :
    ∀ c ∈ name, isNameChar c = true := by
  cases name with
  | nil => cases h
  | cons first more =>
    simp only [isName, Bool.and_eq_true, List.all_eq_true] at h
    intro c hc
    rcases List.mem_cons.mp hc with rfl | hc
    · simp [isNameChar, Char.isAlphanum, h.1]
    · exact h.2 c hc

theorem not_angle_of_mem_escapeValue {c : Char} {s : Text} (h : c ∈ escapeValue s) :
    c ≠ '<' ∧ c ≠ '>' := by
  obtain ⟨d, -, hd⟩ := List.mem_flatMap.mp h
  have hreference : ∀ name ∈ ["&lt;".toList, "&gt;".toList, "&amp;".toList, "&apos;".toList,
      "&quot;".toList], c ∈ name → c ≠ '<' ∧ c ≠ '>' := by
    have hplain : ∀ name ∈ ["&lt;".toList, "&gt;".toList, "&amp;".toList, "&apos;".toList,
        "&quot;".toList], '<' ∉ name ∧ '>' ∉ name := by decide
    intro name hname hc
    obtain ⟨hlt, hgt⟩ := hplain name hname
    exact ⟨fun h => hlt (h ▸ hc), fun h => hgt (h ▸ hc)⟩
  split_ifs at hd with hlt hgt hamp hsingle hdouble
  iterate 5 exact hreference _ (by simp) hd
  · obtain rfl := List.mem_singleton.mp hd
    exact ⟨hlt, hgt⟩

/-! The words of a tag. -/

theorem tagWords_append {quoted : Bool} {w : Text}
    (h : ∀ c ∈ w, c ≠ '"' ∧ (quoted = false → c ≠ ' ')) (t : Text) :
    tagWords quoted (w ++ t) = (w ++ (tagWords quoted t).1, (tagWords quoted t).2) := by
  induction w with
  | nil => rfl
  | cons c w ih =>
    obtain ⟨⟨hquote, hblank⟩, hw⟩ := List.forall_mem_cons.mp h
    have hflag : (quoted != (c == '"')) = quoted := by
      rw [beq_false_of_ne hquote, Bool.bne_false]
    have hinside : (decide (c = ' ') && !quoted) = false := by cases quoted <;> simp_all
    rw [List.cons_append, tagWords, hflag, ih hw]
    simp [hinside]

theorem tagWords_quote (quoted : Bool) (t : Text) :
    tagWords quoted ('"' :: t) = ('"' :: (tagWords (!quoted) t).1, (tagWords (!quoted) t).2) := by
  cases quoted <;> simp [tagWords]

theorem tagWords_blank (t : Text) :
    tagWords false (' ' :: t) = ([], (tagWords false t).1 :: (tagWords false t).2) := by
  simp [tagWords]

def attributeWord (a : Text × Text) : Text := a.1 ++ '=' :: '"' :: (escapeValue a.2 ++ ['"'])

theorem tagWords_attributes {attributes : List (Text × Text)}
    (h : ∀ a ∈ attributes, isName a.1 = true) {t : Text} (ht : (tagWords false t).1 = []) :
    tagWords false (attributes.flatMap Element.attributeText ++ t) =
      ([], attributes.map attributeWord ++ (tagWords false t).2) := by
  induction attributes with
  | nil => exact Prod.ext ht rfl
  | cons a attributes ih =>
    obtain ⟨ha, hmore⟩ := List.forall_mem_cons.mp h
    have hname : ∀ c ∈ a.1, c ≠ '"' ∧ (false = false → c ≠ ' ') := fun c hc =>
      have hchar := isNameChar_of_mem ha c hc
      ⟨ne_of_isNameChar hchar (by decide), fun _ => ne_of_isNameChar hchar (by decide)⟩
    have hvalue : ∀ c ∈ escapeValue a.2, c ≠ '"' ∧ (true = false → c ≠ ' ') := fun c hc =>
      ⟨Xml.ne_of_mem_escapeValue hc, fun h => nomatch h⟩
    have htext : (a :: attributes).flatMap Element.attributeText ++ t =
        ' ' :: (a.1 ++ (['='] ++ '"' :: (escapeValue a.2 ++
          '"' :: (attributes.flatMap Element.attributeText ++ t)))) := by
      simp [Element.attributeText]
    have hequal : ∀ c ∈ ['='], c ≠ '"' ∧ (false = false → c ≠ ' ') := by simp
    rw [htext, tagWords_blank, tagWords_append hname, tagWords_append hequal, tagWords_quote,
      Bool.not_false, tagWords_append hvalue, tagWords_quote, Bool.not_true, ih hmore]
    simp [attributeWord]

theorem attribute?_attributeWord {a : Text × Text} (ha : isName a.1 = true) :
    attribute? (attributeWord a) = some (a.1, some a.2) := by
  have hall : ∀ c ∈ a.1, (c != '=') = true := fun c hc => by
    simpa using ne_of_isNameChar (isNameChar_of_mem ha c hc) (d := '=') (by decide)
  have htake : (attributeWord a).takeWhile (· != '=') = a.1 := by
    simp [attributeWord, List.takeWhile_append_of_pos hall]
  have hdrop : (attributeWord a).dropWhile (· != '=') =
      '=' :: '"' :: (escapeValue a.2 ++ ['"']) := by
    simp [attributeWord, List.dropWhile_append_of_pos hall]
  simp only [attribute?, htake, ha, hdrop, Xml.readValue?_escapeValue]
  rfl

theorem attributes?_map {attributes : List (Text × Text)}
    (h : ∀ a ∈ attributes, isName a.1 = true) :
    attributes? (attributes.map attributeWord) =
      some (attributes.map fun a => (a.1, some a.2)) := by
  induction attributes with
  | nil => rfl
  | cons a attributes ih =>
    obtain ⟨ha, hmore⟩ := List.forall_mem_cons.mp h
    simp [attributes?, attribute?_attributeWord ha, ih hmore]

section Tag

variable {name : Text} {attributes : List (Text × Text)}

theorem ofText?_stop (hname : isName name = true) :
    Tag.ofText? ('/' :: name) = some (.stop name) := by
  simp [Tag.ofText?, hname]

theorem ofText?_of_isName (hname : isName name = true) (s : Text) :
    Tag.ofText? (name ++ s) =
      if !isName (tagWords false (name ++ s)).1 then none
      else if (tagWords false (name ++ s)).2.getLast? = some ['/'] then
        (attributes? (tagWords false (name ++ s)).2.dropLast).map
          (Tag.empty (tagWords false (name ++ s)).1)
      else (attributes? (tagWords false (name ++ s)).2).map
        (Tag.start (tagWords false (name ++ s)).1) := by
  cases name with
  | nil => cases hname
  | cons first more =>
    have hslash : first ≠ '/' := ne_of_isNameChar (isNameChar_of_mem hname first (by simp)) rfl
    unfold Tag.ofText?
    split
    · rename_i heq
      exact absurd (List.cons.inj heq).1 hslash
    · rfl

theorem tagWords_name (hname : isName name = true) (t : Text) :
    tagWords false (name ++ t) = (name ++ (tagWords false t).1, (tagWords false t).2) :=
  tagWords_append (fun c hc =>
    have hchar := isNameChar_of_mem hname c hc
    ⟨ne_of_isNameChar hchar (by decide), fun _ => ne_of_isNameChar hchar (by decide)⟩) t

theorem ofText?_start (hname : isName name = true)
    (hattributes : ∀ a ∈ attributes, isName a.1 = true) :
    Tag.ofText? (name ++ attributes.flatMap Element.attributeText) =
      some (.start name (attributes.map fun a => (a.1, some a.2))) := by
  have hwords := tagWords_attributes hattributes (t := []) rfl
  rw [List.append_nil, tagWords, List.append_nil] at hwords
  have hlast : (attributes.map attributeWord).getLast? ≠ some ['/'] := by
    intro h
    obtain ⟨a, -, ha⟩ := List.mem_map.mp (List.mem_of_getLast? h)
    have hequal : '=' ∈ ['/'] := ha ▸ List.mem_append_right _ (List.mem_cons_self ..)
    exact absurd hequal (by decide)
  rw [ofText?_of_isName hname, tagWords_name hname, hwords, List.append_nil, if_neg hlast,
    attributes?_map hattributes]
  simp [hname]

theorem ofText?_empty (hname : isName name = true)
    (hattributes : ∀ a ∈ attributes, isName a.1 = true) :
    Tag.ofText? (name ++ (attributes.flatMap Element.attributeText ++ [' ', '/'])) =
      some (.empty name (attributes.map fun a => (a.1, some a.2))) := by
  have hwords := tagWords_attributes hattributes (t := [' ', '/']) rfl
  rw [show tagWords false [' ', '/'] = ([], [['/']]) from rfl] at hwords
  rw [ofText?_of_isName hname, tagWords_name hname, hwords]
  simp [hname, attributes?_map hattributes]

theorem not_angle_of_isName (hname : isName name = true) : ∀ c ∈ name, c ≠ '<' ∧ c ≠ '>' :=
  fun c hc =>
    have hchar := isNameChar_of_mem hname c hc
    ⟨ne_of_isNameChar hchar (by decide), ne_of_isNameChar hchar (by decide)⟩

theorem not_angle_of_attributes (hattributes : ∀ a ∈ attributes, isName a.1 = true) :
    ∀ c ∈ attributes.flatMap Element.attributeText, c ≠ '<' ∧ c ≠ '>' := by
  intro c hc
  obtain ⟨a, ha, hc⟩ := List.mem_flatMap.mp hc
  simp only [Element.attributeText, List.mem_append, List.mem_cons, List.not_mem_nil,
    or_false] at hc
  rcases hc with ((rfl | hc) | rfl | rfl | hc) | rfl
  · decide
  · exact not_angle_of_isName (hattributes a ha) c hc
  · decide
  · decide
  · exact not_angle_of_mem_escapeValue hc
  · decide

theorem reads_start (hname : isName name = true)
    (hattributes : ∀ a ∈ attributes, isName a.1 = true) :
    Reads ('<' :: (name ++ attributes.flatMap Element.attributeText) ++ ['>'])
      [.tag (.start name (attributes.map fun a => (a.1, some a.2)))] := by
  refine reads_tag (fun c hc => ?_) (ofText?_start hname hattributes)
  rcases List.mem_append.mp hc with hc | hc
  · exact not_angle_of_isName hname c hc
  · exact not_angle_of_attributes hattributes c hc

theorem reads_empty (hname : isName name = true)
    (hattributes : ∀ a ∈ attributes, isName a.1 = true) :
    Reads ('<' :: (name ++ (attributes.flatMap Element.attributeText ++ [' ', '/'])) ++ ['>'])
      [.tag (.empty name (attributes.map fun a => (a.1, some a.2)))] := by
  refine reads_tag (fun c hc => ?_) (ofText?_empty hname hattributes)
  rcases List.mem_append.mp hc with hc | hc
  · exact not_angle_of_isName hname c hc
  rcases List.mem_append.mp hc with hc | hc
  · exact not_angle_of_attributes hattributes c hc
  · have hend : ∀ d ∈ [' ', '/'], d ≠ '<' ∧ d ≠ '>' := by simp
    exact hend c hc

theorem reads_stop (hname : isName name = true) :
    Reads ('<' :: ('/' :: name) ++ ['>']) [.tag (.stop name)] := by
  refine reads_tag (fun c hc => ?_) (ofText?_stop hname)
  rcases List.mem_cons.mp hc with rfl | hc
  · decide
  · exact not_angle_of_isName hname c hc

end Tag

end Html
end Quizdown
