import Quizdown.Proofs.Assembly.Group
import Quizdown.Proofs.Text.Trim
import Mathlib.Data.List.Chain

/-! Names that are derived from a text: its words with single spaces between them, cut where that is
too long. A derived name is such a text itself, and deriving a name from it changes nothing. -/
set_option autoImplicit false

namespace Quizdown
namespace Text

/-- Each run of blanks as one space. -/
def squeeze : Text → Text
  | [] => []
  | c :: s =>
    if isBlank c then
      if s.head?.any isBlank then squeeze s else ' ' :: squeeze s
    else c :: squeeze s

def collapse (s : Text) : Text := squeeze (trim s)

/-- The only blanks are single spaces between other characters. -/
structure SingleSpaced (s : Text) : Prop where
  trimmed : Trimmed s
  space : ∀ c ∈ s, isBlank c = true → c = ' '
  apart : s.IsChain fun c d => ¬ (isBlank c = true ∧ isBlank d = true)

variable {s : Text} {c : Char}

theorem any_head?_squeeze (s : Text) : (squeeze s).head?.any isBlank = s.head?.any isBlank := by
  induction s with
  | nil => rfl
  | cons c s ih =>
    rw [squeeze]
    split_ifs with hc hs
    · rw [ih, hs, List.head?_cons, Option.any_some, hc]
    · rw [List.head?_cons, List.head?_cons, Option.any_some, Option.any_some, hc]
      rfl
    · rfl

theorem space_of_mem_squeeze (h : c ∈ squeeze s) (hc : isBlank c = true) : c = ' ' := by
  induction s with
  | nil => cases h
  | cons d s ih =>
    rw [squeeze] at h
    split_ifs at h with hd hs
    · exact ih h
    · exact (List.mem_cons.mp h).elim id ih
    · rcases List.mem_cons.mp h with rfl | h
      · exact absurd hc hd
      · exact ih h

theorem isChain_squeeze (s : Text) :
    (squeeze s).IsChain fun c d => ¬ (isBlank c = true ∧ isBlank d = true) := by
  induction s with
  | nil => exact .nil
  | cons c s ih =>
    rw [squeeze]
    split_ifs with hc hs
    · exact ih
    · rw [List.isChain_cons]
      refine ⟨fun d hd hblank => hs ?_, ih⟩
      rw [← any_head?_squeeze, Option.mem_def.mp hd, Option.any_some, hblank.2]
    · rw [List.isChain_cons]
      exact ⟨fun d _ hblank => hc hblank.1, ih⟩

theorem squeeze_eq_self (hspace : ∀ c ∈ s, isBlank c = true → c = ' ')
    (hapart : s.IsChain fun c d => ¬ (isBlank c = true ∧ isBlank d = true)) : squeeze s = s := by
  induction s with
  | nil => rfl
  | cons c s ih =>
    rw [List.forall_mem_cons] at hspace
    rw [List.isChain_cons] at hapart
    rw [squeeze, ih hspace.2 hapart.2]
    split_ifs with hc hs
    · rw [Option.any_eq_true] at hs
      obtain ⟨d, hd, hblank⟩ := hs
      exact absurd ⟨hc, hblank⟩ (hapart.1 d hd)
    · rw [hspace.1 hc]
    · rfl

theorem SingleSpaced.collapse_eq_self (h : SingleSpaced s) : collapse s = s := by
  rw [collapse, trim_eq_self h.trimmed, squeeze_eq_self h.space h.apart]

/-! What the words of a text make with a space between neighbours. -/

theorem words_cons_of_blank (hc : isBlank c = false) (hs : s = [] ∨ s.head?.any isBlank = true) :
    words (c :: s) = [c] :: words s := by
  rcases hs with rfl | hs
  · simp [words, splitBy, hc]
  · obtain ⟨d, s, rfl⟩ : ∃ d t, s = d :: t := by
      cases s with
      | nil => cases hs
      | cons d t => exact ⟨d, t, rfl⟩
    rw [List.head?_cons, Option.any_some] at hs
    simp [words, splitBy, hc, hs]

theorem words_cons_of_not_blank {d : Char} (hc : isBlank c = false) (hd : isBlank d = false) :
    ∃ w ws, words (d :: s) = w :: ws ∧ words (c :: d :: s) = (c :: w) :: ws := by
  obtain ⟨piece, pieces, hpieces⟩ := List.exists_cons_of_ne_nil (splitBy_ne_nil isBlank s)
  exact ⟨d :: piece, pieces.filter fun w => !w.isEmpty, by simp [words, splitBy, hd, hpieces],
    by simp [words, splitBy, hc, hd, hpieces]⟩

/-- The blanks in front, if any, have become a space. -/
theorem squeeze_eq_join (hlast : ∀ c ∈ s.getLast?, isBlank c = false) : squeeze s =
    (if s.head?.any isBlank then [' '] else []) ++ join [' '] (words s) := by
  induction s with
  | nil => rfl
  | cons c s ih =>
    have hrest : ∀ d ∈ s.getLast?, isBlank d = false := by
      intro d hd
      refine hlast d ?_
      rw [List.getLast?_cons, Option.mem_def.mp hd]
      rfl
    rw [List.head?_cons, Option.any_some]
    by_cases hc : isBlank c = true
    · have hblanks : ∀ d ∈ [c], isBlank d = true := by simpa
      have hwords : words (c :: s) = words s := words_blank_append hblanks s
      rw [squeeze, if_pos hc, if_pos hc, hwords, ih hrest]
      split_ifs with hs <;> rfl
    · rw [Bool.not_eq_true] at hc
      have hsqueeze : squeeze (c :: s) = c :: squeeze s := by rw [squeeze, hc]; rfl
      rw [hsqueeze, hc, ih hrest]
      cases s with
      | nil =>
        rw [words_cons_of_blank hc (.inl rfl)]
        rfl
      | cons d s =>
        by_cases hd : isBlank d = true
        · -- the last character is not blank, so that a word follows the space
          have hword : words (d :: s) ≠ [] := by
            rw [Ne, words_eq_nil_iff, isAllBlank_iff]
            intro hblank
            have hlastMem := List.getLast_mem (List.cons_ne_nil d s)
            have hnot := hrest _ (List.getLast?_eq_getLast_of_ne_nil (List.cons_ne_nil d s))
            rw [hblank _ hlastMem] at hnot
            cases hnot
          have hhead : (d :: s).head?.any isBlank = true := hd
          rw [words_cons_of_blank hc (.inr hhead), join_cons hword, hhead]
          rfl
        · rw [Bool.not_eq_true] at hd
          obtain ⟨w, ws, hwords, hcons⟩ := words_cons_of_not_blank (s := s) hc hd
          rw [hwords, hcons, List.head?_cons, Option.any_some, hd]
          cases ws <;> rfl

theorem join_words (s : Text) : join [' '] (words s) = collapse s := by
  have hwords : words s = words (trim s) := by
    obtain ⟨before, behind, hs, hbefore, hbehind⟩ := exists_trim s
    have hmiddle : words (before ++ (trim s ++ behind)) = words (trim s) := by
      rw [words_blank_append hbefore, words_append_blank hbehind]
    rwa [← List.append_assoc, ← hs] at hmiddle
  have hhead : (trim s).head?.any isBlank = false := by
    rw [Option.any_eq_false]
    exact fun c hc => by simp [(trimmed_trim s).head c hc]
  rw [hwords, collapse, squeeze_eq_join (trimmed_trim s).last, hhead]
  rfl

theorem singleSpaced_collapse (s : Text) : SingleSpaced (collapse s) where
  trimmed := join_words s ▸ trimmed_join_words s
  space _ := space_of_mem_squeeze
  apart := isChain_squeeze (trim s)

/-- Of single spaces not more than one is trimmed from the end of a part. -/
theorem SingleSpaced.take_cases (h : SingleSpaced s) (n : Nat) :
    s.take n = trimEnd (s.take n) ∨ s.take n = trimEnd (s.take n) ++ [' '] := by
  obtain ⟨blanks, hs, hblanks⟩ := exists_trimEnd (s.take n)
  have hapart := h.apart.take n
  rw [hs] at hapart
  rcases blanks with _ | ⟨c, _ | ⟨d, blanks⟩⟩
  · rw [List.append_nil] at hs
    exact .inl hs
  · have hc : c ∈ s.take n := by
      rw [hs]
      exact List.mem_append_right _ List.mem_cons_self
    rw [h.space c (List.mem_of_mem_take hc) (hblanks c List.mem_cons_self)] at hs
    exact .inr hs
  · -- two blanks would be neighbours
    have hnot := (List.isChain_cons_cons.mp hapart.right_of_append).1
    exact absurd ⟨hblanks c (by simp), hblanks d (by simp)⟩ hnot

theorem last_trimEnd (s : Text) : ∀ c ∈ (trimEnd s).getLast?, isBlank c = false := by
  intro c hc
  rw [trimEnd, List.getLast?_reverse] at hc
  exact isBlank_head_trimStart hc

end Text

open Text (collapse SingleSpaced isBlank trimEnd)

theorem deriveName?_eq (s : Text) : deriveName? s =
    if collapse s = [] then none
    else if (collapse s).length ≤ 80 then some (collapse s)
    else some (trimEnd ((collapse s).take 77) ++ "...".toList) := by
  rw [deriveName?, Text.join_words]
  simp only [List.isEmpty_iff]
  rfl

theorem deriveName?_cases {s name : Text} (h : deriveName? s = some name) :
    (collapse s).length ≤ 80 ∧ name = collapse s ∨
      80 < (collapse s).length ∧ name = trimEnd ((collapse s).take 77) ++ "...".toList := by
  rw [deriveName?_eq] at h
  split_ifs at h with hnil hle
  · exact .inl ⟨hle, (Option.some.inj h).symm⟩
  · exact .inr ⟨not_le.mp hle, (Option.some.inj h).symm⟩

theorem length_deriveName? {s name : Text} (h : deriveName? s = some name) :
    1 ≤ name.length ∧ name.length ≤ 80 := by
  refine ⟨List.length_pos_iff.mpr (deriveName?_trimmed h).1, ?_⟩
  rcases deriveName?_cases h with ⟨hle, rfl⟩ | ⟨-, rfl⟩
  · exact hle
  · have hkept := (Text.trimEnd_initial ((collapse s).take 77)).length_le
    have hdots : "...".toList.length = 3 := rfl
    rw [List.length_take] at hkept
    rw [List.length_append, hdots]
    omega

theorem singleSpaced_deriveName? {s name : Text} (h : deriveName? s = some name) :
    SingleSpaced name := by
  have hcollapse := Text.singleSpaced_collapse s
  rcases deriveName?_cases h with ⟨-, rfl⟩ | ⟨-, hname⟩
  · exact hcollapse
  · have hinitial := (Text.trimEnd_initial ((collapse s).take 77)).trans (List.take_prefix 77 _)
    refine ⟨(deriveName?_trimmed h).2, fun c hc hblank => ?_, ?_⟩
    · rw [hname, List.mem_append] at hc
      rcases hc with hc | hc
      · exact hcollapse.space c (hinitial.mem hc) hblank
      · obtain rfl : c = '.' := by simpa using hc
        cases hblank
    · rw [hname, List.isChain_append]
      refine ⟨?_, by decide, fun c hc d _ hblank => ?_⟩
      · exact List.IsChain.prefix hcollapse.apart hinitial
      · rw [Text.last_trimEnd _ c hc] at hblank
        exact absurd hblank.1 Bool.false_ne_true

/-- A name can be derived from every text that is not blank: one of 80 characters at most, with no
blanks but single spaces inside. It is the collapsed text, or if that is longer, its first 77
characters and an ellipsis, where a space at the end of these is left out. Nothing else is derived
from a derived name than itself. -/
theorem deriveName?_bounded (s : Text) :
    (deriveName? s = none ↔ ∀ c ∈ s, isBlank c = true) ∧
    ∀ name, deriveName? s = some name →
      1 ≤ name.length ∧ name.length ≤ 80 ∧ SingleSpaced name ∧
      ((collapse s).length ≤ 80 → name = collapse s) ∧
      (80 < (collapse s).length → ∃ kept,
        ((collapse s).take 77 = kept ∨ (collapse s).take 77 = kept ++ [' ']) ∧
        (∀ c ∈ kept.getLast?, isBlank c = false) ∧ name = kept ++ "...".toList) ∧
      deriveName? name = some name := by
  refine ⟨by rw [deriveName?_eq_none_iff, Text.isAllBlank_iff], fun name h => ?_⟩
  obtain ⟨hpos, hle⟩ := length_deriveName? h
  have hspaced := singleSpaced_deriveName? h
  refine ⟨hpos, hle, hspaced, fun hshort => ?_, fun hlong => ?_, ?_⟩
  · rcases deriveName?_cases h with ⟨-, hname⟩ | ⟨hlong, -⟩
    · exact hname
    · omega
  · rcases deriveName?_cases h with ⟨hshort, -⟩ | ⟨-, hname⟩
    · omega
    · exact ⟨_, (Text.singleSpaced_collapse s).take_cases 77, Text.last_trimEnd _, hname⟩
  · rw [deriveName?_eq, hspaced.collapse_eq_self, if_neg (List.length_pos_iff.mp hpos), if_pos hle]

theorem deriveName?_bounded_gap :
    let s := "\t ".toList ++ List.replicate 76 'é' ++ " \n and more".toList
    let name := List.replicate 76 'é' ++ "...".toList
    deriveName? s = some name ∧ 80 < (collapse s).length ∧ deriveName? name = some name := by
  intro s name
  have hname : deriveName? s = some name := by decide +kernel
  exact ⟨hname, by decide +kernel, ((deriveName?_bounded s).2 name hname).2.2.2.2.2⟩

end Quizdown
