import Quizdown.Assembly
import Quizdown.Proofs.Text.Blank
import Mathlib.Data.List.TakeWhile

/-! Texts without blanks at their ends: what trimming leaves, and names derived from a text. -/
set_option autoImplicit false

namespace Quizdown
namespace Text

structure Trimmed (s : Text) : Prop where
  head : ∀ c ∈ s.head?, isBlank c = false
  last : ∀ c ∈ s.getLast?, isBlank c = false

theorem isBlank_head_trimStart {s : Text} {c : Char} (h : c ∈ (trimStart s).head?) :
    isBlank c = false := by
  have hnot := List.head?_dropWhile_not isBlank s
  rw [Option.mem_def] at h
  rw [trimStart] at h
  rw [h] at hnot
  exact hnot

theorem trimStart_suffix (s : Text) : trimStart s <:+ s := List.dropWhile_suffix isBlank

theorem trimStart_append {blanks s : Text} (hblanks : ∀ c ∈ blanks, isBlank c = true)
    (hs : ∀ c ∈ s.head?, isBlank c = false) : trimStart (blanks ++ s) = s := by
  rw [trimStart, List.dropWhile_append_of_pos hblanks]
  cases s with
  | nil => rfl
  | cons c s => simp [hs c rfl]

theorem trimEnd_append {s blanks : Text} (hs : ∀ c ∈ s.getLast?, isBlank c = false)
    (hblanks : ∀ c ∈ blanks, isBlank c = true) : trimEnd (s ++ blanks) = s := by
  have htrim : trimStart (blanks.reverse ++ s.reverse) = s.reverse :=
    trimStart_append (by simpa using hblanks) (by simpa using hs)
  rw [trimEnd, List.reverse_append]
  rw [trimStart] at htrim
  rw [htrim, List.reverse_reverse]

theorem exists_trimStart (s : Text) :
    ∃ blanks, s = blanks ++ trimStart s ∧ ∀ c ∈ blanks, isBlank c = true :=
  ⟨s.takeWhile isBlank, List.takeWhile_append_dropWhile.symm, fun _ hc => List.mem_takeWhile_imp hc⟩

theorem exists_trimEnd (s : Text) :
    ∃ blanks, s = trimEnd s ++ blanks ∧ ∀ c ∈ blanks, isBlank c = true := by
  obtain ⟨blanks, hs, hblanks⟩ := exists_trimStart s.reverse
  refine ⟨blanks.reverse, ?_, by simpa using hblanks⟩
  rw [trimEnd, ← trimStart, ← List.reverse_append, ← hs, List.reverse_reverse]

theorem trimEnd_initial (s : Text) : trimEnd s <+: s := by
  obtain ⟨blanks, hs, -⟩ := exists_trimEnd s
  exact ⟨blanks, hs.symm⟩

theorem trimEnd_eq_nil_iff {s : Text} : trimEnd s = [] ↔ ∀ c ∈ s, isBlank c = true := by
  simp [trimEnd, List.dropWhile_eq_nil_iff]

theorem trimStart_eq_nil_iff {s : Text} : trimStart s = [] ↔ ∀ c ∈ s, isBlank c = true := by
  simp [trimStart, List.dropWhile_eq_nil_iff]

theorem head?_trimEnd {s : Text} (h : trimEnd s ≠ []) : (trimEnd s).head? = s.head? := by
  obtain ⟨blanks, hs⟩ := trimEnd_initial s
  cases ht : trimEnd s with
  | nil => exact absurd ht h
  | cons c t =>
    rw [ht] at hs
    rw [← hs]
    rfl

theorem trimmed_trim (s : Text) : Trimmed (trim s) where
  head c hc := by
    have hne : trimEnd (trimStart s) ≠ [] := by
      intro hnil
      rw [trim, hnil] at hc
      cases hc
    rw [trim, head?_trimEnd hne] at hc
    exact isBlank_head_trimStart hc
  last c hc := by
    rw [trim, trimEnd, List.getLast?_reverse] at hc
    exact isBlank_head_trimStart hc

theorem trim_eq_self {s : Text} (h : Trimmed s) : trim s = s := by
  have hstart : trimStart s = s := @trimStart_append [] s (by simp) h.head
  have hend : trimEnd (s ++ []) = s := trimEnd_append h.last (by simp)
  rw [List.append_nil] at hend
  rw [trim, hstart, hend]

/-- The characters that are not blank, which trimming does not touch. -/
def solid (s : Text) : Text := s.filter fun c => !isBlank c

theorem solid_append (s t : Text) : solid (s ++ t) = solid s ++ solid t := List.filter_append ..

theorem solid_eq_nil_iff {s : Text} : solid s = [] ↔ ∀ c ∈ s, isBlank c = true := by
  simp [solid, List.filter_eq_nil_iff]

theorem solid_trimStart (s : Text) : solid (trimStart s) = solid s := by
  obtain ⟨blanks, hs, hblanks⟩ := exists_trimStart s
  have hsolid : solid s = solid (blanks ++ trimStart s) := by rw [← hs]
  rw [hsolid, solid_append, solid_eq_nil_iff.mpr hblanks, List.nil_append]

theorem solid_trimEnd (s : Text) : solid (trimEnd s) = solid s := by
  obtain ⟨blanks, hs, hblanks⟩ := exists_trimEnd s
  have hsolid : solid s = solid (trimEnd s ++ blanks) := by rw [← hs]
  rw [hsolid, solid_append, solid_eq_nil_iff.mpr hblanks, List.append_nil]

theorem solid_trim (s : Text) : solid (trim s) = solid s := by
  rw [trim, solid_trimEnd, solid_trimStart]

theorem trim_eq_nil_iff {s : Text} : trim s = [] ↔ isAllBlank s = true := by
  rw [trim, isAllBlank_iff]
  constructor
  · intro h c hc
    by_contra hblank
    -- a character that is not blank survives in front, where nothing is dropped at the end
    have hfirst : trimStart s ≠ [] := fun hnil => hblank (trimStart_eq_nil_iff.mp hnil c hc)
    obtain ⟨d, t, hd⟩ := List.exists_cons_of_ne_nil hfirst
    have hall := trimEnd_eq_nil_iff.mp h d (by simp [hd])
    have hnot := @isBlank_head_trimStart s d (by simp [hd])
    simp [hall] at hnot
  · intro h
    rw [trimStart_eq_nil_iff.mpr h]
    rfl

theorem trimStart_append_of_not_blank {s : Text} (hs : isAllBlank s = false) (t : Text) :
    trimStart (s ++ t) = trimStart s ++ t := by
  have hne : trimStart s ≠ [] := fun hnil => by
    rw [trimStart_eq_nil_iff, ← isAllBlank_iff, hs] at hnil
    cases hnil
  rw [trimStart] at hne
  rw [trimStart, trimStart, List.dropWhile_append, if_neg (by simpa using hne)]

theorem trimEnd_append_of_not_blank {t : Text} (ht : isAllBlank t = false) (s : Text) :
    trimEnd (s ++ t) = s ++ trimEnd t := by
  have hreverse : isAllBlank t.reverse = false := by simpa [isAllBlank] using ht
  have hstart := trimStart_append_of_not_blank hreverse s.reverse
  rw [trimStart, trimStart] at hstart
  rw [trimEnd, trimEnd, List.reverse_append, hstart, List.reverse_append, List.reverse_reverse]

theorem trim_trimStart (s : Text) : trim (trimStart s) = trim s := by
  have hagain : trimStart (trimStart s) = trimStart s :=
    @trimStart_append [] _ (by simp) fun c hc => isBlank_head_trimStart hc
  rw [trim, hagain, trim]

theorem trimEnd_append_blanks (s : Text) {blanks : Text} (h : ∀ c ∈ blanks, isBlank c = true) :
    trimEnd (s ++ blanks) = trimEnd s := by
  have hall : ∀ c ∈ blanks.reverse, isBlank c = true := by simpa using h
  rw [trimEnd, List.reverse_append, List.dropWhile_append_of_pos hall, ← trimEnd]

theorem trim_append_blanks (s : Text) {blanks : Text} (h : ∀ c ∈ blanks, isBlank c = true) :
    trim (s ++ blanks) = trim s := by
  cases hblank : isAllBlank s with
  | true =>
    have hall : ∀ c ∈ s ++ blanks, isBlank c = true := by
      rw [List.forall_mem_append]
      exact ⟨isAllBlank_iff.mp hblank, h⟩
    rw [trim_eq_nil_iff.mpr hblank, trim_eq_nil_iff.mpr (isAllBlank_iff.mpr hall)]
  | false => rw [trim, trim, trimStart_append_of_not_blank hblank, trimEnd_append_blanks _ h]

theorem trim_blanks_append {blanks : Text} (h : ∀ c ∈ blanks, isBlank c = true) (s : Text) :
    trim (blanks ++ s) = trim s := by
  rw [trim, trim, trimStart, trimStart, List.dropWhile_append_of_pos h]

theorem exists_trim (s : Text) : ∃ before behind, s = before ++ trim s ++ behind ∧
    (∀ c ∈ before, isBlank c = true) ∧ ∀ c ∈ behind, isBlank c = true := by
  obtain ⟨before, hs, hbefore⟩ := exists_trimStart s
  obtain ⟨behind, hmore, hbehind⟩ := exists_trimEnd (trimStart s)
  refine ⟨before, behind, ?_, hbefore, hbehind⟩
  rw [trim, List.append_assoc, ← hmore, ← hs]

theorem trim_trimEnd (s : Text) : trim (trimEnd s) = trim s := by
  obtain ⟨blanks, hs, hblanks⟩ := exists_trimEnd s
  have htrim : trim s = trim (trimEnd s ++ blanks) := by rw [← hs]
  rw [htrim, trim_append_blanks _ hblanks]

theorem mem_of_mem_trim {s : Text} {c : Char} (h : c ∈ trim s) : c ∈ s :=
  (trimStart_suffix s).mem ((trimEnd_initial (trimStart s)).mem h)

theorem not_of_mem_splitBy {p : Char → Bool} {s w : Text} (hw : w ∈ splitBy p s) :
    ∀ c ∈ w, p c = false := by
  induction s generalizing w with
  | nil =>
    intro c hc
    simp [splitBy] at hw
    simp [hw] at hc
  | cons d s ih =>
    rw [splitBy] at hw
    by_cases hd : p d = true
    · rw [if_pos hd] at hw
      cases hw with
      | head =>
        intro c hc
        cases hc
      | tail _ hw => exact ih hw
    · rw [if_neg hd] at hw
      cases hs : splitBy p s with
      | nil => exact absurd hs (splitBy_ne_nil p s)
      | cons piece pieces =>
        simp only [hs] at hw ih
        cases hw with
        | head =>
          intro c hc
          rcases List.mem_cons.mp hc with rfl | hc
          · simpa using hd
          · exact ih (List.mem_cons_self ..) c hc
        | tail _ hw => exact ih (List.mem_cons_of_mem _ hw)

theorem isBlank_of_mem_words {s w : Text} (hw : w ∈ words s) : ∀ c ∈ w, isBlank c = false :=
  not_of_mem_splitBy (List.mem_filter.mp hw).1

theorem head?_join {sep t : Text} {ts : Texts} (ht : t ≠ []) :
    (join sep (t :: ts)).head? = t.head? := by
  cases ts with
  | nil => rfl
  | cons u ts => rw [join_cons (by simp), List.append_assoc, List.head?_append_of_ne_nil _ ht]

theorem getLast?_join {sep t : Text} {ts : Texts} (ht : t ≠ []) :
    (join sep (ts ++ [t])).getLast? = t.getLast? := by
  cases ts with
  | nil => rfl
  | cons u ts => rw [join_concat (by simp), List.getLast?_append_of_ne_nil _ ht]

theorem trimmed_join_words (s : Text) : Trimmed (join [' '] (words s)) where
  head c hc := by
    cases hw : words s with
    | nil => simp [hw] at hc
    | cons w ws =>
      have hmem : w ∈ words s := by simp [hw]
      rw [hw, head?_join (ne_nil_of_mem_words hmem)] at hc
      exact isBlank_of_mem_words hmem c (List.mem_of_mem_head? hc)
  last c hc := by
    rcases List.eq_nil_or_concat (words s) with hw | ⟨ws, w, hw⟩
    · simp [hw] at hc
    · rw [List.concat_eq_append] at hw
      have hmem : w ∈ words s := by simp [hw]
      rw [hw, getLast?_join (ne_nil_of_mem_words hmem)] at hc
      exact isBlank_of_mem_words hmem c (List.mem_of_mem_getLast? hc)

theorem mem_distinct {t : Text} {ts : Texts} : t ∈ distinct ts ↔ t ∈ ts := by
  induction ts with
  | nil => simp [distinct]
  | cons s ts ih =>
    by_cases hts : t = s <;> simp [distinct, ih, hts]

theorem nodup_distinct (ts : Texts) : (distinct ts).Nodup := by
  induction ts with
  | nil => simp [distinct]
  | cons s ts ih =>
    rw [distinct, List.nodup_cons]
    exact ⟨by simp, ih.filter _⟩

end Text

theorem deriveName?_trimmed {s name : Text} (h : deriveName? s = some name) :
    name ≠ [] ∧ Text.Trimmed name := by
  unfold deriveName? at h
  dsimp only at h
  have hwords := Text.trimmed_join_words s
  split at h
  · cases h
  · rename_i hne
    rw [List.isEmpty_iff] at hne
    split at h
    · cases h
      exact ⟨hne, hwords⟩
    · cases h
      -- the cut text keeps its first character, and the ellipsis ends it
      obtain ⟨c, t, hc⟩ := List.exists_cons_of_ne_nil hne
      have hfirst : Text.isBlank c = false := hwords.head c (by simp [hc])
      have hcut : ((Text.join [' '] (Text.words s)).take (nameLimit - ellipsis.length)).head? =
          some c := by rw [hc]; rfl
      have hkept : Text.trimEnd
          ((Text.join [' '] (Text.words s)).take (nameLimit - ellipsis.length)) ≠ [] := by
        intro hnil
        have hblank := Text.trimEnd_eq_nil_iff.mp hnil c (List.mem_of_mem_head? hcut)
        simp [hfirst] at hblank
      refine ⟨by simp [ellipsis], fun d hd => ?_, fun d hd => ?_⟩
      · rw [List.head?_append_of_ne_nil _ hkept, Text.head?_trimEnd hkept, hcut] at hd
        cases hd
        exact hfirst
      · have hlast : d = '.' := by simpa [ellipsis, eq_comm] using hd
        rw [hlast]
        rfl

theorem splitTags_clean (heading : Text) :
    (splitTags heading).Nodup ∧
      ∀ t ∈ splitTags heading, t ≠ [] ∧ Text.Trimmed t ∧ ',' ∉ t := by
  refine ⟨Text.nodup_distinct _, fun t ht => ?_⟩
  rw [splitTags, Text.mem_distinct, List.mem_filter] at ht
  obtain ⟨hmem, hne⟩ := ht
  obtain ⟨piece, hpiece, rfl⟩ := List.mem_map.mp hmem
  refine ⟨by simpa using hne, Text.trimmed_trim piece, fun hcomma => ?_⟩
  have hno := Text.not_of_mem_splitBy hpiece ',' (Text.mem_of_mem_trim hcomma)
  simp at hno

end Quizdown
