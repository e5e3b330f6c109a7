import Quizdown.Proofs.Text.Trim
import Mathlib.Data.List.Forall2

/-! The answers of a classified list have the shape of its kind: how many there are, which of their
fields are present, and what these hold. -/
set_option autoImplicit false

namespace Quizdown

def Kind.Fits (kind : Kind) (answers : List Answer) : Prop :=
  match kind with
  | singleChoice | multipleChoice => True
  | enumeratedMatching => ∀ i a, answers[i]? = some a → a.orderIndex = some (i + 1)
  | associativeMatching => ∀ a ∈ answers, a.matchKey.isSome = true ∧ a.matchValue.isSome = true
  | shortAnswer => ∃ a, answers = [a]
  | numerical => ∃ a, answers = [a] ∧ a.tolerance.isSome = true

structure Kind.OwnFields (kind : Kind) (a : Answer) : Prop where
  matchKey : a.matchKey.isSome = decide (kind = .associativeMatching)
  matchValue : a.matchValue.isSome = decide (kind = .associativeMatching)
  orderIndex : a.orderIndex.isSome = decide (kind = .enumeratedMatching)
  tolerance : a.tolerance.isSome = decide (kind = .numerical)

def Kind.HasShape (kind : Kind) (answers : List Answer) : Prop :=
  match kind with
  | singleChoice =>
    ∃ before a after, answers = before ++ a :: after ∧ a.checked = true ∧ a.fraction = 100.0 ∧
      ∀ b ∈ before ++ after, b.checked = false ∧ b.fraction = 0.0
  | multipleChoice => ∃ a ∈ answers, a.checked = true
  | enumeratedMatching => ∀ i a, answers[i]? = some a → a.orderIndex = some (i + 1)
  | associativeMatching =>
    2 ≤ answers.length ∧ ∀ a ∈ answers, ∃ key,
      a.matchKey = some key ∧ key ≠ [] ∧ Text.Trimmed key ∧
      a.matchValue = some a.text ∧ a.text ≠ [] ∧ Text.Trimmed a.text
  | shortAnswer => ∃ a, answers = [a] ∧ a.text ≠ [] ∧ Text.Trimmed a.text ∧ a.fraction = 100.0
  | numerical => ∃ a, answers = [a] ∧ a.fraction = 100.0

structure Kind.WellShaped (kind : Kind) (answers : List Answer) : Prop where
  ne_nil : answers ≠ []
  ownFields : ∀ a ∈ answers, kind.OwnFields a
  shape : kind.HasShape answers

theorem Kind.WellShaped.fits {kind : Kind} {answers : List Answer}
    (h : kind.WellShaped answers) : kind.Fits answers := by
  have hshape := h.shape
  cases kind with
  | singleChoice | multipleChoice => trivial
  | enumeratedMatching => exact hshape
  | associativeMatching =>
    exact fun a ha => ⟨(h.ownFields a ha).matchKey, (h.ownFields a ha).matchValue⟩
  | shortAnswer =>
    obtain ⟨a, ha, -⟩ := hshape
    exact ⟨a, ha⟩
  | numerical =>
    obtain ⟨a, rfl, -⟩ := hshape
    exact ⟨a, rfl, (h.ownFields a (by simp)).tolerance⟩

namespace AnswerList

variable {list : AnswerList} {forceMulti : Bool} {separator : Text} {c : Classification}

theorem firstBlank?_eq_none_iff {items : List Item} :
    firstBlank? items = none ↔ ∀ item ∈ items, Text.isAllBlank item.text = false := by
  simp [firstBlank?]

/-- The inversion of a classification: how each kind comes about. -/
theorem classify_eq_ok (h : list.classify forceMulti separator = .ok c) :
    list.items ≠ [] ∧ (∀ item ∈ list.items, Text.isAllBlank item.text = false) ∧
      ((2 ≤ list.items.length ∧ ∃ answers, pairs? separator list.items = some answers ∧
          c = ⟨.associativeMatching, answers⟩) ∨
        (list.ordered = true ∧ c = ⟨.enumeratedMatching, enumerated 0 list.items⟩) ∨
        (∃ item, list.items = [item] ∧ c = item.single) ∨
        choice list.items forceMulti = .ok c) := by
  unfold classify at h
  dsimp only at h
  split at h
  · cases h
  rename_i hne
  split at h
  · cases h
  rename_i hblank
  refine ⟨by simpa using hne, firstBlank?_eq_none_iff.mp hblank, ?_⟩
  split at h
  · split at h
    · rename_i answers hpairs
      cases h
      split at hpairs
      · rename_i htwo
        exact .inl ⟨htwo, answers, hpairs, rfl⟩
      · cases hpairs
    · split at h
      · rename_i hordered
        cases h
        exact .inr (.inl ⟨hordered, rfl⟩)
      · split at h
        · rename_i item hitems
          cases h
          exact .inr (.inr (.inl ⟨item, hitems, rfl⟩))
        · cases h
  · split at h
    · exact .inr (.inr (.inr h))
    · cases h

theorem enumerated_getElem? (items : List Item) (n i : Nat) :
    (enumerated n items)[i]? =
      items[i]?.map fun item => { text := item.html, orderIndex := some (n + i + 1) } := by
  induction items generalizing n i with
  | nil => rfl
  | cons item items ih =>
    cases i with
    | zero => rfl
    | succ i =>
      have hn : n + 1 + i + 1 = n + (i + 1) + 1 := by omega
      simp [enumerated, ih, hn]

theorem wellShaped_enumerated {items : List Item} (h : items ≠ []) :
    Kind.enumeratedMatching.WellShaped (enumerated 0 items) where
  ne_nil := by
    cases items with
    | nil => exact absurd rfl h
    | cons item items => simp [enumerated]
  ownFields a ha := by
    obtain ⟨i, ha⟩ := List.mem_iff_getElem?.mp ha
    rw [enumerated_getElem?] at ha
    obtain ⟨item, -, rfl⟩ := Option.map_eq_some_iff.mp ha
    exact ⟨rfl, rfl, rfl, rfl⟩
  shape i a ha := by
    rw [enumerated_getElem?] at ha
    obtain ⟨item, -, rfl⟩ := Option.map_eq_some_iff.mp ha
    simp

theorem pair?_eq_some {item : Item} {a : Answer} (h : item.pair? separator = some a) :
    ∃ key value, a = { text := value, matchKey := some key, matchValue := some value } ∧
      key ≠ [] ∧ Text.Trimmed key ∧ value ≠ [] ∧ Text.Trimmed value := by
  unfold Item.pair? at h
  split at h
  · cases h
  · rename_i key value _
    dsimp only at h
    split at h
    · cases h
    · rename_i hne
      cases h
      rw [Bool.or_eq_true, not_or, List.isEmpty_iff, List.isEmpty_iff] at hne
      exact ⟨_, _, rfl, hne.1, Text.trimmed_trim key, hne.2, Text.trimmed_trim value⟩

theorem forall₂_of_pairs? {items : List Item} {answers : List Answer}
    (h : pairs? separator items = some answers) :
    List.Forall₂ (fun item a => item.pair? separator = some a) items answers := by
  induction items generalizing answers with
  | nil =>
    cases h
    exact .nil
  | cons item items ih =>
    rw [pairs?] at h
    split at h
    · rename_i a more hpair hmore
      cases h
      exact .cons hpair (ih hmore)
    · cases h

theorem wellShaped_pairs {items : List Item} {answers : List Answer}
    (h : pairs? separator items = some answers) (htwo : 2 ≤ items.length) :
    Kind.associativeMatching.WellShaped answers := by
  have hall := forall₂_of_pairs? h
  have hlength : items.length = answers.length := hall.length_eq
  have hpair (a : Answer) (ha : a ∈ answers) : ∃ item : Item, item.pair? separator = some a := by
    obtain ⟨i, hi⟩ := List.mem_iff_getElem?.mp ha
    obtain ⟨hlt, rfl⟩ := List.getElem?_eq_some_iff.mp hi
    exact ⟨_, hall.get (by omega) hlt⟩
  refine ⟨?_, fun a ha => ?_, by omega, fun a ha => ?_⟩
  · intro hnil
    rw [hnil, List.length_nil] at hlength
    omega
  · obtain ⟨item, hitem⟩ := hpair a ha
    obtain ⟨key, value, rfl, -⟩ := pair?_eq_some hitem
    exact ⟨rfl, rfl, rfl, rfl⟩
  · obtain ⟨item, hitem⟩ := hpair a ha
    obtain ⟨key, value, rfl, hkey, hkeyTrimmed, hvalue, hvalueTrimmed⟩ := pair?_eq_some hitem
    exact ⟨key, rfl, hkey, hkeyTrimmed, rfl, hvalue, hvalueTrimmed⟩

theorem wellShaped_single {item : Item} (h : Text.isAllBlank item.text = false) :
    item.single.kind.WellShaped item.single.answers := by
  unfold Item.single
  split
  · refine ⟨by simp, fun a ha => ?_, _, rfl, rfl⟩
    rw [List.mem_singleton.mp ha]
    exact ⟨rfl, rfl, rfl, rfl⟩
  · have hne : Text.trim item.text ≠ [] := fun hnil => by
      rw [Text.trim_eq_nil_iff, h] at hnil
      cases hnil
    refine ⟨by simp, fun a ha => ?_, _, rfl, hne, Text.trimmed_trim _, rfl⟩
    rw [List.mem_singleton.mp ha]
    exact ⟨rfl, rfl, rfl, rfl⟩

theorem toFloat_hundred : Share.toFloat ⟨100, 1⟩ = 100.0 := by decide +kernel

theorem toFloat_zero : Share.toFloat ⟨0, 1⟩ = 0.0 := by decide +kernel

theorem ownFields_option {kind : Kind} (hkind : kind.isChoice = true) (right other : Share)
    (item : Item) : kind.OwnFields (item.option right other) := by
  cases kind <;> first | exact ⟨rfl, rfl, rfl, rfl⟩ | cases hkind

theorem hasShape_singleChoice {items : List Item}
    (h : (items.filter fun item => item.checked == some true).length = 1) :
    Kind.singleChoice.HasShape (items.map (Item.option ⟨100, 1⟩ ⟨0, 1⟩)) := by
  obtain ⟨item, hitem⟩ := List.length_eq_one_iff.mp h
  obtain ⟨before, after, rfl, hbefore, hchecked, hafter⟩ := List.filter_eq_cons_iff.mp hitem
  rw [List.filter_eq_nil_iff] at hafter
  refine ⟨before.map (Item.option ⟨100, 1⟩ ⟨0, 1⟩), item.option ⟨100, 1⟩ ⟨0, 1⟩,
    after.map (Item.option ⟨100, 1⟩ ⟨0, 1⟩), by simp, hchecked, ?_, ?_⟩
  · simp [Item.option, hchecked, toFloat_hundred]
  · rw [← List.map_append]
    intro b hb
    obtain ⟨other, hother, rfl⟩ := List.mem_map.mp hb
    have hunchecked : (other.checked == some true) = false := by
      rcases List.mem_append.mp hother with hother | hother
      · simpa using hbefore other hother
      · simpa using hafter other hother
    simp [Item.option, hunchecked, toFloat_zero]

theorem hasShape_multipleChoice {items : List Item}
    (h : (items.filter fun item => item.checked == some true).length ≠ 0) (right other : Share) :
    Kind.multipleChoice.HasShape (items.map (Item.option right other)) := by
  obtain ⟨item, hitem⟩ := List.exists_mem_of_length_pos (Nat.pos_of_ne_zero h)
  obtain ⟨hmem, hchecked⟩ := List.mem_filter.mp hitem
  exact ⟨item.option right other, List.mem_map.mpr ⟨item, hmem, rfl⟩, hchecked⟩

theorem wellShaped_choice {items : List Item} (h : choice items forceMulti = .ok c) :
    c.kind.WellShaped c.answers := by
  unfold choice at h
  dsimp only at h
  split at h
  · cases h
  rename_i hcorrect
  cases h
  have hne : items ≠ [] := by
    rintro rfl
    exact hcorrect rfl
  split
  · rename_i hone
    rw [Bool.and_eq_true, decide_eq_true_eq] at hone
    refine ⟨by simpa using hne, fun a ha => ?_, hasShape_singleChoice hone.1⟩
    obtain ⟨item, -, rfl⟩ := List.mem_map.mp ha
    exact ownFields_option rfl _ _ item
  · refine ⟨by simpa using hne, fun a ha => ?_, hasShape_multipleChoice hcorrect _ _⟩
    obtain ⟨item, -, rfl⟩ := List.mem_map.mp ha
    exact ownFields_option rfl _ _ item

theorem wellShaped_of_classify (h : list.classify forceMulti separator = .ok c) :
    c.kind.WellShaped c.answers := by
  obtain ⟨hne, htext, ⟨htwo, answers, hpairs, rfl⟩ | ⟨-, rfl⟩ | ⟨item, hitem, rfl⟩ | hchoice⟩ :=
    classify_eq_ok h
  · exact wellShaped_pairs hpairs htwo
  · exact wellShaped_enumerated hne
  · exact wellShaped_single (htext item (by simp [hitem]))
  · exact wellShaped_choice hchoice

end AnswerList
end Quizdown
