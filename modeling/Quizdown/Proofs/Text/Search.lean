import Quizdown.Text.Basic
import Mathlib.Data.List.Infix

/-! What the search for a text finds, and that the find does not depend on the text behind it. -/
set_option autoImplicit false

namespace Quizdown
namespace Text

theorem stripPrefix?_eq_some_iff {pre s rest : Text} :
    stripPrefix? pre s = some rest ↔ s = pre ++ rest := by
  rw [stripPrefix?, List.isPrefixOf?_eq_some_iff_append_eq, eq_comm]

theorem stripPrefix?_append (pre s : Text) : stripPrefix? pre (pre ++ s) = some s :=
  stripPrefix?_eq_some_iff.mpr rfl

theorem stripPrefix?_eq_none_iff {pre s : Text} : stripPrefix? pre s = none ↔ ¬ pre <+: s := by
  rw [← Option.not_isSome_iff_eq_none, stripPrefix?, List.isSome_isPrefixOf?_eq_isPrefixOf,
    List.isPrefixOf_iff_prefix]

theorem splitFirst?_eq_some {needle s before rest : Text}
    (h : splitFirst? needle s = some (before, rest)) : s = before ++ needle ++ rest := by
  induction s generalizing before with
  | nil =>
    rw [splitFirst?] at h
    split at h
    · rename_i hempty
      obtain ⟨rfl, rfl⟩ : [] = before ∧ [] = rest := by simpa using h
      simpa using hempty
    · cases h
  | cons c s ih =>
    rw [splitFirst?] at h
    split at h
    · rename_i after hstart
      obtain ⟨rfl, rfl⟩ : [] = before ∧ after = rest := by simpa using h
      simpa using stripPrefix?_eq_some_iff.mp hstart
    · obtain ⟨⟨before', rest'⟩, hfound, heq⟩ := Option.map_eq_some_iff.mp h
      obtain ⟨rfl, rfl⟩ : c :: before' = before ∧ rest' = rest := by simpa using heq
      rw [ih hfound, List.cons_append, List.cons_append]

theorem splitFirst?_append (needle rest : Text) :
    splitFirst? needle (needle ++ rest) = some ([], rest) := by
  cases hs : needle ++ rest with
  | nil =>
    obtain ⟨rfl, rfl⟩ := List.append_eq_nil_iff.mp hs
    rfl
  | cons c s =>
    have hstrip := stripPrefix?_append needle rest
    rw [hs] at hstrip
    rw [splitFirst?, hstrip]

/-- An occurrence that begins in front of another one does not reach behind it. -/
theorem prefix_append_iff {needle y rest : Text} :
    needle <+: y ++ needle ++ rest ↔ needle <+: y ++ needle :=
  ⟨fun h => List.prefix_of_prefix_length_le h (List.prefix_append _ _) (by simp),
    fun h => h.trans (List.prefix_append _ _)⟩

theorem splitFirst?_eq_some_iff {needle s before rest : Text} :
    splitFirst? needle s = some (before, rest) ↔ s = before ++ needle ++ rest ∧
      ∀ y, y <:+ before → y ≠ [] → ¬ needle <+: y ++ needle := by
  constructor
  · intro h
    refine ⟨splitFirst?_eq_some h, ?_⟩
    induction s generalizing before with
    | nil =>
      obtain ⟨rfl, -, -⟩ : before = [] ∧ needle = [] ∧ rest = [] := by
        simpa using (splitFirst?_eq_some h).symm
      exact fun y hy hne => absurd (List.suffix_nil.mp hy) hne
    | cons c s ih =>
      have hs := splitFirst?_eq_some h
      rw [splitFirst?] at h
      split at h
      · obtain ⟨rfl, -⟩ := Prod.mk.inj (Option.some.inj h)
        exact fun y hy hne => absurd (List.suffix_nil.mp hy) hne
      · rename_i hnone
        obtain ⟨⟨before', rest'⟩, hfound, heq⟩ := Option.map_eq_some_iff.mp h
        obtain ⟨rfl, rfl⟩ := Prod.mk.inj heq
        intro y hy hne
        rcases List.suffix_cons_iff.mp hy with rfl | hy
        · rw [hs, stripPrefix?_eq_none_iff, prefix_append_iff] at hnone
          exact hnone
        · exact ih hfound y hy hne
  · rintro ⟨rfl, hfirst⟩
    induction before with
    | nil => exact splitFirst?_append needle rest
    | cons c before ih =>
      have hnone : stripPrefix? needle (c :: (before ++ needle ++ rest)) = none :=
        stripPrefix?_eq_none_iff.mpr fun h =>
          hfirst (c :: before) (List.suffix_refl _) (List.cons_ne_nil c before)
            (prefix_append_iff.mp h)
      have hrest := ih fun y hy => hfirst y (hy.trans (List.suffix_cons c before))
      rw [List.cons_append, List.cons_append, splitFirst?, hnone, hrest]
      rfl

theorem splitFirst?_eq_none_iff {needle s : Text} :
    splitFirst? needle s = none ↔ ¬ needle <:+: s := by
  induction s with
  | nil => by_cases h : needle = [] <;> simp [splitFirst?, h]
  | cons c s ih =>
    rw [splitFirst?, List.infix_cons_iff, not_or, ← stripPrefix?_eq_none_iff, ← ih]
    cases stripPrefix? needle (c :: s) <;> simp

theorem not_infix_of_splitFirst? {needle s before rest : Text} (hne : needle ≠ [])
    (h : splitFirst? needle s = some (before, rest)) : ¬ needle <:+: before := by
  rintro ⟨x, y, rfl⟩
  refine (splitFirst?_eq_some_iff.mp h).2 (needle ++ y) ⟨x, by simp⟩ (by simp [hne]) ?_
  exact ⟨y ++ needle, by simp⟩

/-- Two occurrences never overlap: nothing that the text ends with is what it begins with. -/
def Unbordered (needle : Text) : Prop := ∀ z ∈ needle.tails, z <+: needle → z = needle ∨ z = []

instance (needle : Text) : Decidable (Unbordered needle) :=
  inferInstanceAs (Decidable (∀ z ∈ needle.tails, z <+: needle → z = needle ∨ z = []))

theorem splitFirst?_of_unbordered {needle before : Text} (hneedle : Unbordered needle)
    (h : ¬ needle <:+: before) (rest : Text) :
    splitFirst? needle (before ++ needle ++ rest) = some (before, rest) := by
  refine splitFirst?_eq_some_iff.mpr ⟨rfl, fun y hy hne hprefix => ?_⟩
  rcases List.prefix_or_prefix_of_prefix hprefix (List.prefix_append y needle) with hin | ⟨z, hz⟩
  · exact h (hin.isInfix.trans hy.isInfix)
  · -- the occurrence would go on with a part of the text that the text also begins with
    have hpart : z <+: needle := by
      have hwhole : y ++ z <+: y ++ needle := hz.symm ▸ hprefix
      exact (List.prefix_append_right_inj y).mp hwhole
    rcases hneedle z ((List.mem_tails z needle).mpr ⟨y, hz⟩) hpart with rfl | rfl
    · exact hne (List.append_left_eq_self.mp hz)
    · rw [List.append_nil] at hz
      exact h (hz ▸ hy.isInfix)

theorem splitFirst?_replace {needle s before rest : Text}
    (h : splitFirst? needle s = some (before, rest)) (t : Text) :
    splitFirst? needle (before ++ needle ++ t) = some (before, t) :=
  splitFirst?_eq_some_iff.mpr ⟨rfl, (splitFirst?_eq_some_iff.mp h).2⟩

theorem splitFirst?_append_left {n : Char} {needle w : Text} (hw : n ∉ w) (s : Text) :
    splitFirst? (n :: needle) (w ++ s) =
      (splitFirst? (n :: needle) s).map fun found => (w ++ found.1, found.2) := by
  induction w with
  | nil => simp
  | cons c w ih =>
    simp only [List.mem_cons, not_or] at hw
    have hnone : stripPrefix? (n :: needle) (c :: (w ++ s)) = none :=
      stripPrefix?_eq_none_iff.mpr fun h => hw.1 (List.cons_prefix_cons.mp h).1
    rw [List.cons_append, splitFirst?, hnone, ih hw.2, Option.map_map]
    rfl

theorem splitFirst?_append_right {needle w : Text} (hne : needle ≠ []) (hw : ∀ c ∈ w, c ∉ needle)
    (s : Text) : splitFirst? needle (s ++ w) =
      (splitFirst? needle s).map fun found => (found.1, found.2 ++ w) := by
  cases hs : splitFirst? needle s with
  | some found =>
    obtain ⟨before, rest⟩ := found
    have hreplace := splitFirst?_replace hs (rest ++ w)
    rw [← List.append_assoc, ← splitFirst?_eq_some hs] at hreplace
    exact hreplace
  | none =>
    rw [splitFirst?_eq_none_iff] at hs
    rw [Option.map_none, splitFirst?_eq_none_iff]
    rintro ⟨x, y, htext⟩
    rcases List.append_eq_append_iff.mp htext with ⟨z, rfl, -⟩ | ⟨z, hx, hy⟩
    · exact hs ⟨x, z, rfl⟩
    · by_cases hz : z = []
      · rw [hz, List.append_nil] at hx
        exact hs ⟨x, [], by rw [List.append_nil, hx]⟩
      · -- the last character of the occurrence would stand in the added text
        have hlast : needle.getLast? = z.getLast? := by
          rw [← List.getLast?_append_of_ne_nil x hne, hx, List.getLast?_append_of_ne_nil s hz]
        have hmem := List.getLast_mem hz
        refine hw (z.getLast hz) (hy ▸ List.mem_append_left y hmem) ?_
        rw [List.getLast?_eq_getLast_of_ne_nil hz] at hlast
        exact List.mem_of_getLast? hlast

theorem split_behind {w s x t : Text} {c : Char} (hc : c ∉ w) (h : w ++ s = x ++ c :: t) :
    ∃ z, x = w ++ z ∧ s = z ++ c :: t := by
  induction w generalizing x with
  | nil => exact ⟨x, rfl, h⟩
  | cons d w ih =>
    simp only [List.mem_cons, not_or] at hc
    cases x with
    | nil => exact absurd (List.cons.inj h).1.symm hc.1
    | cons e x =>
      obtain ⟨rfl, htail⟩ := List.cons.inj h
      obtain ⟨z, rfl, hz⟩ := ih hc.2 htail
      exact ⟨z, rfl, hz⟩

end Text
end Quizdown
