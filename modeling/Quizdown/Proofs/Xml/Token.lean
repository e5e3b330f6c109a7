import Quizdown.Xml.Reader
import Quizdown.Xml.Writer
import Mathlib.Data.List.TakeWhile

/-! Each token that the writer makes is read back, whatever follows it: escaped text, attributes
and tags. Escaping is undone character by character, and no escaped character ends a token. -/
set_option autoImplicit false

namespace Quizdown
namespace Xml

variable {c : Char} {s : Text}

theorem isSpace_iff : isSpace c = true ↔ c = ' ' ∨ c = '\t' ∨ c = '\n' ∨ c = '\r' := by
  simp [isSpace, or_assoc]

theorem decodeFrom_cons (hamp : c ≠ '&') (hlt : c ≠ '<') (s : Text) :
    decodeFrom none (c :: s) = (decodeFrom none s).map (c :: ·) := by
  simp [decodeFrom, hamp, hlt]

theorem decode?_of_forall (h : ∀ c ∈ s, c ≠ '&' ∧ c ≠ '<') : decode? s = some s := by
  induction s with
  | nil => rfl
  | cons c s ih =>
    obtain ⟨hamp, hlt⟩ := h c (by simp)
    have hs : decode? s = some s := ih fun d hd => h d (by simp [hd])
    rw [decode?] at hs ⊢
    rw [decodeFrom_cons hamp hlt, hs]
    rfl

theorem decode?_flatMap {f : Char → Text}
    (h : ∀ c s, decodeFrom none (f c ++ s) = (decodeFrom none s).map (c :: ·)) (s : Text) :
    decode? (s.flatMap f) = some s := by
  induction s with
  | nil => rfl
  | cons c s ih =>
    rw [decode?] at ih ⊢
    rw [List.flatMap_cons, h, ih]
    rfl

theorem decode?_escapeText (s : Text) : decode? (escapeText s) = some s := by
  refine decode?_flatMap (fun c s => ?_) s
  split_ifs with hlt hgt hamp
  · rw [hlt]; rfl
  · rw [hgt]; rfl
  · rw [hamp]; rfl
  · exact decodeFrom_cons hamp hlt s

theorem decode?_escapeValue (s : Text) : decode? (escapeValue s) = some s := by
  refine decode?_flatMap (fun c s => ?_) s
  split_ifs with hlt hgt hamp hsingle hdouble
  · rw [hlt]; rfl
  · rw [hgt]; rfl
  · rw [hamp]; rfl
  · rw [hsingle]; rfl
  · rw [hdouble]; rfl
  · exact decodeFrom_cons hamp hlt s

theorem ne_of_mem_escapeText (h : c ∈ escapeText s) : c ≠ '<' := by
  obtain ⟨d, -, hd⟩ := List.mem_flatMap.mp h
  rintro rfl
  split_ifs at hd with hlt hgt hamp
  · exact absurd hd (by decide)
  · exact absurd hd (by decide)
  · exact absurd hd (by decide)
  · exact hlt (List.mem_singleton.mp hd).symm

theorem ne_of_mem_escapeValue (h : c ∈ escapeValue s) : c ≠ '"' := by
  obtain ⟨d, -, hd⟩ := List.mem_flatMap.mp h
  rintro rfl
  split_ifs at hd with hlt hgt hamp hsingle hdouble
  · exact absurd hd (by decide)
  · exact absurd hd (by decide)
  · exact absurd hd (by decide)
  · exact absurd hd (by decide)
  · exact absurd hd (by decide)
  · exact hdouble (List.mem_singleton.mp hd).symm

theorem escapeText_ne_nil (h : s ≠ []) : escapeText s ≠ [] := by
  intro hs
  have hdecoded := decode?_escapeText s
  rw [hs] at hdecoded
  exact h (Option.some.inj hdecoded).symm

theorem isNameStart_of_isName (h : isName (c :: s) = true) : isNameStart c = true :=
  (Bool.and_eq_true_iff.mp h).1

theorem readName?_append {name : Text} (hname : isName name = true)
    (hc : isNameChar c = false) (s : Text) :
    readName? (name ++ c :: s) = some (name, c :: s) := by
  cases name with
  | nil => cases hname
  | cons first more =>
    obtain ⟨hfirst, hmore⟩ := Bool.and_eq_true_iff.mp hname
    have hall : ∀ d ∈ more, isNameChar d = true := List.all_eq_true.mp hmore
    have htake : (more ++ c :: s).takeWhile isNameChar = more := by
      simp [List.takeWhile_append_of_pos hall, hc]
    have hdrop : (more ++ c :: s).dropWhile isNameChar = c :: s := by
      simp [List.dropWhile_append_of_pos hall, hc]
    rw [List.cons_append, readName?, if_pos hfirst, htake, hdrop]

theorem readValue?_escapeValue (value s : Text) :
    readValue? ('"' :: (escapeValue value ++ '"' :: s)) = some (value, s) := by
  have hall : ∀ d ∈ escapeValue value, (d != '"') = true := fun d hd => by
    simpa using ne_of_mem_escapeValue hd
  have htake : (escapeValue value ++ '"' :: s).takeWhile (· != '"') = escapeValue value := by
    simp [List.takeWhile_append_of_pos hall]
  have hdrop : (escapeValue value ++ '"' :: s).dropWhile (· != '"') = '"' :: s := by
    simp [List.dropWhile_append_of_pos hall]
  simp only [readValue?, htake, hdrop, decode?_escapeValue]
  rfl

theorem readAttribute?_append {a : Text × Text} (ha : isName a.1 = true) (s : Text) :
    readAttribute? (a.1 ++ '=' :: '"' :: (escapeValue a.2 ++ '"' :: s)) = some (a, s) := by
  have hquote : ∀ t : Text, ('"' :: t).dropWhile isSpace = '"' :: t := fun t => rfl
  have hequal : ∀ t : Text, ('=' :: t).dropWhile isSpace = '=' :: t := fun t => rfl
  rw [readAttribute?, readName?_append ha (by decide)]
  simp only [hequal, hquote, readValue?_escapeValue]
  rfl

theorem not_isSpace_of_isNameStart (h : isNameStart c = true) : isSpace c = false := by
  by_contra hspace
  rw [Bool.not_eq_false, isSpace_iff] at hspace
  rcases hspace with rfl | rfl | rfl | rfl <;> exact absurd h (by decide)

theorem readAttributes?_append {attributes : List (Text × Text)}
    (h : ∀ a ∈ attributes, isName a.1 = true) (hc : isSpace c = false) (s : Text) :
    readAttributes? (attributes.flatMap Element.attributeText ++ c :: s) =
      some (attributes, c :: s) := by
  induction attributes with
  | nil => simp [readAttributes?, hc]
  | cons a attributes ih =>
    have ha : isName a.1 = true := h a (by simp)
    have hrest := ih fun b hb => h b (by simp [hb])
    obtain ⟨first, more, hname⟩ : ∃ first more, a.1 = first :: more := by
      cases hn : a.1 with
      | nil => rw [hn] at ha; cases ha
      | cons first more => exact ⟨first, more, rfl⟩
    have hstart : isNameStart first = true := isNameStart_of_isName (hname ▸ ha)
    have htext : (a :: attributes).flatMap Element.attributeText ++ c :: s =
        ' ' :: (a.1 ++ '=' :: '"' :: (escapeValue a.2 ++ '"' ::
          (attributes.flatMap Element.attributeText ++ c :: s))) := by
      simp [Element.attributeText]
    have hdrop : ∀ t : Text, (' ' :: (a.1 ++ t)).dropWhile isSpace = a.1 ++ t := fun t => by
      have hblank : isSpace ' ' = true := rfl
      simp [hname, hblank, not_isSpace_of_isNameStart hstart]
    have hhead : ∀ t : Text, (a.1 ++ t).head?.any isNameStart = true := fun t => by
      simp [hname, hstart]
    rw [htext, readAttributes?, hdrop, hhead, if_pos (by rfl)]
    split
    · rename_i hnone
      rw [readAttribute?_append ha] at hnone
      cases hnone
    · rename_i b rest hread
      rw [readAttribute?_append ha] at hread
      cases hread
      rw [hrest]
      rfl

theorem readStart?_head {tag : Text} {attributes : List (Text × Text)} (htag : isName tag = true)
    (hattributes : ∀ a ∈ attributes, isName a.1 = true) (hname : isNameChar c = false)
    (hspace : isSpace c = false) (s : Text) :
    ∃ rest, readName? (tag ++ (attributes.flatMap Element.attributeText ++ c :: s)) =
        some (tag, rest) ∧ readAttributes? rest = some (attributes, c :: s) := by
  refine ⟨_, ?_, readAttributes?_append hattributes hspace s⟩
  cases attributes with
  | nil => exact readName?_append htag hname s
  | cons a attributes => exact readName?_append htag (by decide) _

theorem readToken?_of_isName {tag : Text} (htag : isName tag = true) (s : Text) :
    readToken? ('<' :: (tag ++ s)) = readStart? (tag ++ s) := by
  cases tag with
  | nil => cases htag
  | cons first more =>
    rw [List.cons_append, readToken?]
    intro rest heq
    rw [(List.cons.inj heq).1] at htag
    exact absurd (isNameStart_of_isName htag) (by decide)

section Tag

variable {tag : Text} {attributes : List (Text × Text)}

theorem readToken?_start (htag : isName tag = true)
    (hattributes : ∀ a ∈ attributes, isName a.1 = true) (s : Text) :
    readToken? ('<' :: (tag ++ (attributes.flatMap Element.attributeText ++ '>' :: s))) =
      some (.start tag attributes, s) := by
  obtain ⟨rest, hname, hrest⟩ := readStart?_head htag hattributes (c := '>') (by decide) rfl s
  rw [readToken?_of_isName htag, readStart?, hname]
  simp only [hrest]

theorem readToken?_empty (htag : isName tag = true)
    (hattributes : ∀ a ∈ attributes, isName a.1 = true) (s : Text) :
    readToken? ('<' :: (tag ++ (attributes.flatMap Element.attributeText ++ '/' :: '>' :: s))) =
      some (.empty tag attributes, s) := by
  obtain ⟨rest, hname, hrest⟩ := readStart?_head htag hattributes (c := '/') (by decide) rfl
    ('>' :: s)
  rw [readToken?_of_isName htag, readStart?, hname]
  simp only [hrest]

theorem readToken?_stop (htag : isName tag = true) (s : Text) :
    readToken? ('<' :: '/' :: (tag ++ '>' :: s)) = some (.stop tag, s) := by
  rw [readToken?, readStop?, readName?_append htag (by decide)]
  rfl

end Tag

/-- Text without markup is one token up to the next tag or the end. -/
theorem readToken?_text {raw text rest : Text} (hne : raw ≠ []) (hraw : ∀ c ∈ raw, c ≠ '<')
    (hdecode : decode? raw = some text) (hrest : ∀ c ∈ rest.head?, c = '<') :
    readToken? (raw ++ rest) = some (.text text, rest) := by
  have hall : ∀ c ∈ raw, (c != '<') = true := fun c hc => by simpa using hraw c hc
  cases raw with
  | nil => exact absurd rfl hne
  | cons c raw =>
    have hc : c ≠ '<' := hraw c (by simp)
    have hmore : ∀ d ∈ raw, (d != '<') = true := fun d hd => hall d (by simp [hd])
    have htake : (raw ++ rest).takeWhile (· != '<') = raw := by
      rw [List.takeWhile_append_of_pos hmore]
      cases rest with
      | nil => simp
      | cons d rest => simp [hrest d rfl]
    have hdrop : (raw ++ rest).dropWhile (· != '<') = rest := by
      rw [List.dropWhile_append_of_pos hmore]
      cases rest with
      | nil => rfl
      | cons d rest => simp [hrest d rfl]
    rw [List.cons_append, readToken?, htake, hdrop, hdecode]
    · rfl
    · exact fun _ h _ => hc h
    · exact hc

end Xml
end Quizdown
