import Quizdown.Text.Basic
import Mathlib.Data.List.Basic

/-! Blank text has no words; and texts joined one after the other. -/
set_option autoImplicit false

namespace Quizdown
namespace Text

theorem isAllBlank_iff {s : Text} : isAllBlank s = true ↔ ∀ c ∈ s, isBlank c = true := by
  simp [isAllBlank]

theorem splitBy_ne_nil (p : Char → Bool) (s : Text) : splitBy p s ≠ [] := by
  induction s with
  | nil => simp [splitBy]
  | cons c s ih =>
    rw [splitBy]
    split
    · simp
    · split <;> simp

theorem forall_mem_splitBy_eq_nil_iff {p : Char → Bool} {s : Text} :
    (∀ w ∈ splitBy p s, w = []) ↔ ∀ c ∈ s, p c = true := by
  induction s with
  | nil => simp [splitBy]
  | cons c s ih =>
    rw [splitBy]
    by_cases hc : p c = true
    · simp [hc, ih]
    · cases hs : splitBy p s with
      | nil => exact absurd hs (splitBy_ne_nil p s)
      | cons piece pieces => simp [hc]

theorem words_eq_nil_iff {s : Text} : words s = [] ↔ isAllBlank s = true := by
  rw [isAllBlank_iff, ← forall_mem_splitBy_eq_nil_iff (p := isBlank), words,
    List.filter_eq_nil_iff]
  simp

theorem ne_nil_of_mem_words {s w : Text} (h : w ∈ words s) : w ≠ [] := by
  have hw := (List.mem_filter.mp h).2
  simpa using hw

theorem splitBy_of_forall_not {p : Char → Bool} {s : Text} (h : ∀ c ∈ s, p c = false) :
    splitBy p s = [s] := by
  induction s with
  | nil => rfl
  | cons c s ih =>
    rw [List.forall_mem_cons] at h
    simp [splitBy, h.1, ih h.2]

theorem splitBy_append {p : Char → Bool} {c : Char} (hc : p c = true) (s t : Text) :
    splitBy p (s ++ c :: t) = splitBy p s ++ splitBy p t := by
  induction s with
  | nil => simp [splitBy, hc]
  | cons d s ih =>
    rw [List.cons_append, splitBy, splitBy, ih]
    split
    · rfl
    · cases hs : splitBy p s with
      | nil => exact absurd hs (splitBy_ne_nil p s)
      | cons piece pieces => rfl

theorem words_append {c : Char} (hc : isBlank c = true) (s t : Text) :
    words (s ++ c :: t) = words s ++ words t := by
  rw [words, splitBy_append hc, List.filter_append, words, words]

theorem words_blank_append {blanks : Text} (h : ∀ c ∈ blanks, isBlank c = true) (s : Text) :
    words (blanks ++ s) = words s := by
  induction blanks with
  | nil => rfl
  | cons c blanks ih =>
    rw [List.forall_mem_cons] at h
    have hwords := words_append h.1 [] (blanks ++ s)
    rw [ih h.2] at hwords
    exact hwords

theorem words_append_blank {blanks : Text} (h : ∀ c ∈ blanks, isBlank c = true) (s : Text) :
    words (s ++ blanks) = words s := by
  cases blanks with
  | nil => rw [List.append_nil]
  | cons c blanks =>
    rw [List.forall_mem_cons] at h
    rw [words_append h.1, words_eq_nil_iff.mpr (isAllBlank_iff.mpr h.2), List.append_nil]

/-- Blanks between two texts divide their words, however many they are. -/
theorem words_append_append {blanks : Text} (h : ∀ c ∈ blanks, isBlank c = true)
    (hne : blanks ≠ []) (s t : Text) : words (s ++ (blanks ++ t)) = words s ++ words t := by
  obtain ⟨c, blanks, rfl⟩ := List.exists_cons_of_ne_nil hne
  rw [List.forall_mem_cons] at h
  rw [List.cons_append, words_append h.1, words_blank_append h.2]

@[simp] theorem join_nil (sep : Text) : join sep [] = [] := rfl

@[simp] theorem join_singleton (sep s : Text) : join sep [s] = s := rfl

theorem join_cons {sep s : Text} {rest : Texts} (h : rest ≠ []) :
    join sep (s :: rest) = s ++ sep ++ join sep rest := by
  cases rest with
  | nil => exact absurd rfl h
  | cons t rest => rfl

theorem join_eq_nil_iff {sep : Text} {ts : Texts} (h : ∀ t ∈ ts, t ≠ []) :
    join sep ts = [] ↔ ts = [] := by
  cases ts with
  | nil => simp
  | cons t ts =>
    have ht : t ≠ [] := h t (by simp)
    cases ts with
    | nil => simpa using ht
    | cons u ts => simp [join_cons, ht]

theorem join_concat {sep t : Text} {ts : Texts} (h : ts ≠ []) :
    join sep (ts ++ [t]) = join sep ts ++ sep ++ t := by
  induction ts with
  | nil => exact absurd rfl h
  | cons s ts ih =>
    cases ts with
    | nil => simp [join_cons]
    | cons u ts =>
      have hleft : join sep (s :: u :: ts ++ [t]) = s ++ sep ++ join sep (u :: ts ++ [t]) :=
        join_cons (by simp)
      have hright : join sep (s :: u :: ts) = s ++ sep ++ join sep (u :: ts) := join_cons (by simp)
      rw [hleft, ih (by simp), hright]
      simp only [List.append_assoc]

end Text

end Quizdown
