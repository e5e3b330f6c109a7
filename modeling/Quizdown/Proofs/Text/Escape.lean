import Quizdown.Proofs.Text.Search
import Quizdown.Proofs.Text.Trim
import Quizdown.Proofs.Xml.Token
import Mathlib.Data.List.Induction

/-! Escaped text as a row of characters and references. Escaping touches no blank, so it commutes
with trimming; and a text without markup that begins in front of a character of escaped text, and
not within a reference, begins there in the text itself. -/
set_option autoImplicit false

namespace Quizdown

def isMarkup (c : Char) : Bool := c == '<' || c == '>' || c == '&'

variable {c : Char} {s t : Text}

theorem escapeText_append (s t : Text) : escapeText (s ++ t) = escapeText s ++ escapeText t :=
  List.flatMap_append

theorem escapeText_cons (c : Char) (s : Text) :
    escapeText (c :: s) = escapeText [c] ++ escapeText s := escapeText_append [c] s

theorem escapeText_char (h : isMarkup c = false) : escapeText [c] = [c] := by
  obtain ⟨⟨hlt, hgt⟩, hamp⟩ : (c ≠ '<' ∧ c ≠ '>') ∧ c ≠ '&' := by simpa [isMarkup] using h
  simp [escapeText, hlt, hgt, hamp]

theorem escapeText_eq_self (h : ∀ c ∈ s, isMarkup c = false) : escapeText s = s := by
  induction s with
  | nil => rfl
  | cons c s ih =>
    obtain ⟨hc, hs⟩ := List.forall_mem_cons.mp h
    rw [escapeText_cons, escapeText_char hc, ih hs, List.singleton_append]

theorem reference_cases (h : isMarkup c = true) :
    ∃ name, escapeText [c] = '&' :: name ∧ 3 ≤ name.length ∧ name ⊆ "ltgamp;".toList := by
  have hcases : c = '<' ∨ c = '>' ∨ c = '&' := by simpa [isMarkup, or_assoc] using h
  rcases hcases with rfl | rfl | rfl
  · exact ⟨"lt;".toList, rfl, by decide, by decide⟩
  · exact ⟨"gt;".toList, rfl, by decide, by decide⟩
  · exact ⟨"amp;".toList, rfl, by decide, by decide⟩

theorem isBlank_of_isMarkup (h : isMarkup c = true) : Text.isBlank c = false := by
  have hcases : c = '<' ∨ c = '>' ∨ c = '&' := by simpa [isMarkup, or_assoc] using h
  rcases hcases with rfl | rfl | rfl <;> rfl

theorem isMarkup_of_isBlank (h : Text.isBlank c = true) : isMarkup c = false := by
  rw [Bool.eq_false_iff]
  intro hc
  rw [isBlank_of_isMarkup hc] at h
  cases h

theorem not_isBlank_of_mem_escapeText (h : Text.isBlank c = false) :
    ∀ d ∈ escapeText [c], Text.isBlank d = false := by
  cases hc : isMarkup c with
  | false => simp [escapeText_char hc, h]
  | true =>
    obtain ⟨name, hname, -, hletters⟩ := reference_cases hc
    have hblank : ∀ d ∈ "ltgamp;".toList, Text.isBlank d = false := by simp [Text.isBlank]
    rw [hname, List.forall_mem_cons]
    exact ⟨rfl, fun d hd => hblank d (hletters hd)⟩

theorem escapeText_eq_nil_iff : escapeText s = [] ↔ s = [] :=
  ⟨fun h => by_contra fun hs => Xml.escapeText_ne_nil hs h, fun h => by rw [h]; rfl⟩

theorem prefix_of_prefix_escapeText {needle : Text} (hneedle : ∀ c ∈ needle, isMarkup c = false)
    (h : needle <+: escapeText s) : needle <+: s := by
  induction needle generalizing s with
  | nil => exact List.nil_prefix
  | cons n needle ih =>
    obtain ⟨hn, hneedle⟩ := List.forall_mem_cons.mp hneedle
    cases s with
    | nil => exact absurd (List.prefix_nil.mp h) (List.cons_ne_nil n needle)
    | cons c s =>
      rw [escapeText_cons] at h
      cases hc : isMarkup c with
      | false =>
        rw [escapeText_char hc, List.singleton_append, List.cons_prefix_cons] at h
        exact List.cons_prefix_cons.mpr ⟨h.1, ih hneedle h.2⟩
      | true =>
        obtain ⟨name, hname, -⟩ := reference_cases hc
        rw [hname, List.cons_append, List.cons_prefix_cons] at h
        rw [h.1] at hn
        cases hn

/-- Where escaped text may be cut: in front of a character of the text, or within a reference, of
which a part is then left. -/
theorem suffix_escapeText (h : t <:+ escapeText s) : (∃ u, u <:+ s ∧ t = escapeText u) ∨
    ∃ before c after part, s = before ++ c :: after ∧ isMarkup c = true ∧
      part <:+ (escapeText [c]).tail ∧ part ≠ [] ∧ t = part ++ escapeText after := by
  induction s with
  | nil => exact .inl ⟨[], List.suffix_refl [], List.suffix_nil.mp h⟩
  | cons c s ih =>
    obtain ⟨front, hfront⟩ := h
    rw [escapeText_cons] at hfront
    rcases List.append_eq_append_iff.mp hfront with ⟨part, hc, ht⟩ | ⟨more, -, hs⟩
    · cases front with
      | nil => exact .inl ⟨c :: s, List.suffix_refl _, by rw [escapeText_cons, hc, ht]; rfl⟩
      | cons d front =>
        by_cases hpart : part = []
        · exact .inl ⟨s, List.suffix_cons c s, by rw [ht, hpart, List.nil_append]⟩
        · have htail : part <:+ (escapeText [c]).tail := ⟨front, by rw [hc]; rfl⟩
          have hmarkup : isMarkup c = true := by
            by_contra hplain
            rw [escapeText_char (Bool.not_eq_true _ ▸ hplain)] at htail
            exact hpart (List.suffix_nil.mp htail)
          exact .inr ⟨[], c, s, part, rfl, hmarkup, htail, hpart, ht⟩
    · rcases ih ⟨more, hs.symm⟩ with ⟨u, hu, ht⟩ | ⟨before, d, after, part, rfl, hd⟩
      · exact .inl ⟨u, hu.trans (List.suffix_cons c s), ht⟩
      · exact .inr ⟨c :: before, d, after, part, rfl, hd⟩

namespace Text

theorem trimStart_escapeText (s : Text) : trimStart (escapeText s) = escapeText (trimStart s) := by
  induction s with
  | nil => rfl
  | cons c s ih =>
    by_cases hc : isBlank c = true
    · rw [escapeText_cons, escapeText_char (isMarkup_of_isBlank hc), List.singleton_append]
      simpa [trimStart, hc] using ih
    · rw [Bool.not_eq_true] at hc
      have hstart : trimStart (c :: s) = c :: s := by simp [trimStart, hc]
      obtain ⟨d, more, hd⟩ :=
        List.exists_cons_of_ne_nil (Xml.escapeText_ne_nil (List.cons_ne_nil c []))
      have hblank := not_isBlank_of_mem_escapeText hc d (by simp [hd])
      rw [hstart, escapeText_cons, hd]
      simp [trimStart, hblank]

theorem trimEnd_escapeText (s : Text) : trimEnd (escapeText s) = escapeText (trimEnd s) := by
  induction s using List.reverseRecOn with
  | nil => rfl
  | append_singleton s c ih =>
    rw [escapeText_append]
    by_cases hc : isBlank c = true
    · have hend : trimEnd (s ++ [c]) = trimEnd s := by simp [trimEnd, hc]
      rw [escapeText_char (isMarkup_of_isBlank hc), hend, ← ih]
      simp [trimEnd, hc]
    · rw [Bool.not_eq_true] at hc
      have hend : trimEnd (s ++ [c]) = s ++ [c] := by simp [trimEnd, hc]
      rw [hend, escapeText_append]
      have hlast : ∀ d ∈ (escapeText s ++ escapeText [c]).getLast?, isBlank d = false := by
        intro d hd
        rw [List.getLast?_append_of_ne_nil _ (Xml.escapeText_ne_nil (List.cons_ne_nil c []))] at hd
        exact not_isBlank_of_mem_escapeText hc d (List.mem_of_mem_getLast? hd)
      simpa using @trimEnd_append _ [] hlast

theorem trim_escapeText (s : Text) : trim (escapeText s) = escapeText (trim s) := by
  rw [trim, trimStart_escapeText, trimEnd_escapeText, trim]

theorem isAllBlank_escapeText (s : Text) : isAllBlank (escapeText s) = isAllBlank s := by
  rw [Bool.eq_iff_iff, ← trim_eq_nil_iff, ← trim_eq_nil_iff, trim_escapeText, escapeText_eq_nil_iff]

theorem solid_of_forall {s : Text} (h : ∀ c ∈ s, isBlank c = false) : solid s = s :=
  List.filter_eq_self.mpr fun c hc => by simp [h c hc]

theorem length_solid_reference (h : isMarkup c = true) :
    (solid [c]).length < (solid (escapeText [c])).length := by
  have hblank := isBlank_of_isMarkup h
  obtain ⟨name, hname, hlength, -⟩ := reference_cases h
  rw [solid_of_forall (not_isBlank_of_mem_escapeText hblank), hname,
    solid_of_forall (List.forall_mem_singleton.mpr hblank)]
  simp only [List.length_cons, List.length_nil]
  omega

theorem length_solid_char (c : Char) : (solid [c]).length ≤ (solid (escapeText [c])).length := by
  cases hc : isMarkup c with
  | false => rw [escapeText_char hc]
  | true => exact Nat.le_of_lt (length_solid_reference hc)

theorem length_solid_escapeText_cons (c : Char) (s : Text) :
    (solid (escapeText (c :: s))).length =
      (solid (escapeText [c])).length + (solid (escapeText s)).length := by
  rw [escapeText_cons, solid_append, List.length_append]

theorem length_solid_cons (c : Char) (s : Text) :
    (solid (c :: s)).length = (solid [c]).length + (solid s).length := by
  rw [← List.singleton_append, solid_append, List.length_append]

theorem length_solid_le (s : Text) : (solid s).length ≤ (solid (escapeText s)).length := by
  induction s with
  | nil => rfl
  | cons c s ih =>
    rw [length_solid_escapeText_cons, length_solid_cons]
    exact Nat.add_le_add (length_solid_char c) ih

theorem isMarkup_of_solid_escapeText {s : Text} (h : solid (escapeText s) = solid s) :
    ∀ c ∈ s, isMarkup c = false := by
  have hlength : (solid (escapeText s)).length ≤ (solid s).length := by rw [h]
  clear h
  induction s with
  | nil => exact List.forall_mem_nil _
  | cons c s ih =>
    rw [length_solid_escapeText_cons, length_solid_cons] at hlength
    have hchar := length_solid_char c
    have hrest := length_solid_le s
    rw [List.forall_mem_cons]
    refine ⟨Bool.eq_false_iff.mpr fun hc => ?_, ih (by omega)⟩
    have := length_solid_reference hc
    omega

end Text
end Quizdown
