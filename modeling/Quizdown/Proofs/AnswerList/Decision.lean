import Quizdown.Proofs.AnswerList.Shape
import Quizdown.Proofs.Text.OutsideTags

/-! The table by which lists are classified: the outcomes, the condition of each, and the answers
that come from the items. -/
set_option autoImplicit false

namespace Quizdown
namespace Item

def IsPair (separator : Text) (item : Item) : Prop :=
  ∃ key value, Text.FirstOutsideTags separator false item.html key value ∧
    Text.isAllBlank key = false ∧ Text.isAllBlank value = false

/-- The answer that an item gives in a question of the kind. It knows of no other item but for the
credits, and of its position only where answers are ordered. -/
def answerAs (kind : Kind) (separator : Text) (credits : Share × Share) (position : Nat)
    (item : Item) : Option Answer :=
  match kind with
  | .singleChoice | .multipleChoice => some (item.option credits.1 credits.2)
  | .enumeratedMatching => some { text := item.html, orderIndex := some position }
  | .associativeMatching => item.pair? separator
  | .shortAnswer | .numerical => item.single.answers.head?

variable {separator : Text} {item : Item}

theorem isSome_pair?_iff : (item.pair? separator).isSome = true ↔ item.IsPair separator := by
  have hempty (s : Text) : (Text.trim s).isEmpty = Text.isAllBlank s := by
    rw [Bool.eq_iff_iff, List.isEmpty_iff, Text.trim_eq_nil_iff]
  unfold pair? IsPair
  simp only [← Text.splitOutsideTags_eq_some_iff]
  cases hsplit : Text.splitOutsideTags separator item.html with
  | none => simp
  | some found =>
    obtain ⟨key, value⟩ := found
    simp [hempty]

theorem kind_single (item : Item) : item.single.kind =
    if (NumericAnswer.ofText? item.text).isSome then .numerical else .shortAnswer := by
  unfold single
  cases NumericAnswer.ofText? item.text <;> rfl

end Item

namespace AnswerList

def boxes (list : AnswerList) : Nat := list.items.countP fun item => item.checked.isSome

def ticks (list : AnswerList) : Nat := list.items.countP fun item => item.checked == some true

def Filled (list : AnswerList) : Prop :=
  list.items ≠ [] ∧ ∀ item ∈ list.items, Text.isAllBlank item.text = false

def Paired (list : AnswerList) (separator : Text) : Prop :=
  2 ≤ list.items.length ∧ ∀ item ∈ list.items, item.IsPair separator

/-- The decision table: when the list is a question of the kind, or refused for the reason. -/
def Decides (list : AnswerList) (forceMulti : Bool) (separator : Text) :
    Except ClassifyError Kind → Prop
  | .error .emptyList => list.items = []
  | .error (.emptyItem position) => ∃ before item after, list.items = before ++ item :: after ∧
      (∀ i ∈ before, Text.isAllBlank i.text = false) ∧ Text.isAllBlank item.text = true ∧
      position = before.length + 1
  | .ok .associativeMatching => list.Filled ∧ list.boxes = 0 ∧ list.Paired separator
  | .ok .enumeratedMatching =>
    list.Filled ∧ list.boxes = 0 ∧ ¬ list.Paired separator ∧ list.ordered = true
  | .ok .numerical => list.Filled ∧ list.boxes = 0 ∧ list.ordered = false ∧
      ∃ item, list.items = [item] ∧ (NumericAnswer.ofText? item.text).isSome = true
  | .ok .shortAnswer => list.Filled ∧ list.boxes = 0 ∧ list.ordered = false ∧
      ∃ item, list.items = [item] ∧ (NumericAnswer.ofText? item.text).isSome = false
  | .error (.ambiguous n) => list.Filled ∧ list.boxes = 0 ∧ ¬ list.Paired separator ∧
      list.ordered = false ∧ 2 ≤ list.items.length ∧ n = list.items.length
  | .error .mixedCheckboxes => list.Filled ∧ 0 < list.boxes ∧ list.boxes < list.items.length
  | .error .noCorrectAnswer => list.Filled ∧ list.boxes = list.items.length ∧ list.ticks = 0
  | .ok .singleChoice => list.Filled ∧ list.boxes = list.items.length ∧
      list.ticks = 1 ∧ forceMulti = false
  | .ok .multipleChoice => list.Filled ∧ list.boxes = list.items.length ∧
      list.ticks ≠ 0 ∧ ¬ (list.ticks = 1 ∧ forceMulti = false)

variable {list : AnswerList} {forceMulti : Bool} {separator : Text}

theorem isSome_pairs?_iff {items : List Item} :
    (pairs? separator items).isSome = true ↔ ∀ item ∈ items, item.IsPair separator := by
  induction items with
  | nil => simp [pairs?]
  | cons item items ih =>
    rw [List.forall_mem_cons, ← ih, ← Item.isSome_pair?_iff, pairs?]
    cases item.pair? separator <;> cases pairs? separator items <;> simp

theorem boxes_eq (list : AnswerList) :
    (list.items.filter fun item => item.checked.isSome).length = list.boxes :=
  List.countP_eq_length_filter.symm

theorem ticks_eq (list : AnswerList) :
    (list.items.filter fun item => item.checked == some true).length = list.ticks :=
  List.countP_eq_length_filter.symm

theorem map_kind_choice (list : AnswerList) (forceMulti : Bool) :
    (choice list.items forceMulti).map Classification.kind =
      if list.ticks = 0 then .error .noCorrectAnswer
      else if list.ticks = 1 ∧ forceMulti = false then .ok .singleChoice
      else .ok .multipleChoice := by
  unfold choice
  simp only [ticks_eq]
  by_cases hnone : list.ticks = 0
  · simp [hnone, Except.map]
  · by_cases hsingle : list.ticks = 1 ∧ forceMulti = false <;> simp [hnone, hsingle, Except.map]

def outcome (list : AnswerList) (forceMulti : Bool) (separator : Text) :
    Except ClassifyError Kind :=
  (list.classify forceMulti separator).map Classification.kind

theorem outcome_nil (h : list.items = []) :
    list.outcome forceMulti separator = .error .emptyList := by
  simp [outcome, classify, h, Except.map]

theorem firstBlank?_eq_some_iff {items : List Item} {position : Nat} :
    firstBlank? items = some position ↔ ∃ before item after, items = before ++ item :: after ∧
      (∀ i ∈ before, Text.isAllBlank i.text = false) ∧ Text.isAllBlank item.text = true ∧
      position = before.length + 1 := by
  rw [firstBlank?, Option.map_eq_some_iff]
  constructor
  · rintro ⟨i, hfound, rfl⟩
    obtain ⟨hlt, hblank, hfirst⟩ := List.findIdx?_eq_some_iff_getElem.mp hfound
    refine ⟨items.take i, items[i], items.drop (i + 1), ?_, ?_, hblank, ?_⟩
    · rw [List.getElem_cons_drop, List.take_append_drop]
    · intro item hitem
      obtain ⟨j, hj, rfl⟩ := List.mem_take_iff_getElem.mp hitem
      simpa using hfirst j (by omega)
    · rw [List.length_take_of_le hlt.le]
  · rintro ⟨before, item, after, rfl, hbefore, hblank, rfl⟩
    refine ⟨before.length, ?_, rfl⟩
    rw [List.findIdx?_append, List.findIdx?_eq_none_iff.mpr hbefore, List.findIdx?_cons,
      if_pos hblank]
    simp

theorem outcome_blank {before after : List Item} {item : Item}
    (hitems : list.items = before ++ item :: after)
    (hbefore : ∀ i ∈ before, Text.isAllBlank i.text = false)
    (hblank : Text.isAllBlank item.text = true) :
    list.outcome forceMulti separator = .error (.emptyItem (before.length + 1)) := by
  have hfirst : firstBlank? list.items = some (before.length + 1) :=
    firstBlank?_eq_some_iff.mpr ⟨before, item, after, hitems, hbefore, hblank, rfl⟩
  have hne : list.items ≠ [] := by simp [hitems]
  simp [outcome, classify, hne, hfirst, Except.map]

section Filled

variable (h : list.Filled)
include h

theorem classify_filled : list.classify forceMulti separator =
    if list.boxes = 0 then
      match if 2 ≤ list.items.length then pairs? separator list.items else none with
      | some answers => .ok ⟨.associativeMatching, answers⟩
      | none =>
        if list.ordered then .ok ⟨.enumeratedMatching, enumerated 0 list.items⟩
        else
          match list.items with
          | [item] => .ok item.single
          | _ => .error (.ambiguous list.items.length)
    else if list.boxes = list.items.length then choice list.items forceMulti
    else .error .mixedCheckboxes := by
  -- the two sides match on the pairs with functions of their own, which `exact` takes for the same
  have hread : list.classify forceMulti separator = list.classify forceMulti separator := rfl
  conv at hread =>
    rhs
    unfold classify
    simp only [firstBlank?_eq_none_iff.mpr h.2, boxes_eq, List.isEmpty_iff, h.1, if_false]
  exact hread

theorem outcome_paired (hplain : list.boxes = 0) (hpaired : list.Paired separator) :
    list.outcome forceMulti separator = .ok .associativeMatching := by
  obtain ⟨answers, hanswers⟩ := Option.isSome_iff_exists.mp (isSome_pairs?_iff.mpr hpaired.2)
  rw [outcome, classify_filled h, if_pos hplain, if_pos hpaired.1, hanswers]
  rfl

theorem classify_unpaired (hplain : list.boxes = 0) (hpaired : ¬ list.Paired separator) :
    list.classify forceMulti separator =
      if list.ordered then .ok ⟨.enumeratedMatching, enumerated 0 list.items⟩
      else
        match list.items with
        | [item] => .ok item.single
        | _ => .error (.ambiguous list.items.length) := by
  have hnone : (if 2 ≤ list.items.length then pairs? separator list.items else none) = none := by
    split_ifs with htwo
    · rw [← Option.not_isSome_iff_eq_none, isSome_pairs?_iff]
      exact fun hall => hpaired ⟨htwo, hall⟩
    · rfl
  rw [classify_filled h, if_pos hplain, hnone]

theorem outcome_ordered (hplain : list.boxes = 0) (hpaired : ¬ list.Paired separator)
    (hordered : list.ordered = true) :
    list.outcome forceMulti separator = .ok .enumeratedMatching := by
  rw [outcome, classify_unpaired h hplain hpaired, if_pos hordered]
  rfl

theorem outcome_single (hplain : list.boxes = 0) (hunordered : list.ordered = false) {item : Item}
    (hitem : list.items = [item]) :
    list.outcome forceMulti separator = .ok item.single.kind := by
  have hpaired : ¬ list.Paired separator := fun hpaired => by
    simpa [hitem] using hpaired.1
  rw [outcome, classify_unpaired h hplain hpaired, hunordered, hitem]
  rfl

theorem outcome_ambiguous (hplain : list.boxes = 0) (hpaired : ¬ list.Paired separator)
    (hunordered : list.ordered = false) (htwo : 2 ≤ list.items.length) :
    list.outcome forceMulti separator = .error (.ambiguous list.items.length) := by
  rw [outcome, classify_unpaired h hplain hpaired, hunordered]
  match hitems : list.items, htwo with
  | first :: second :: rest, _ => rfl

theorem outcome_choice (hall : list.boxes = list.items.length) :
    list.outcome forceMulti separator =
      if list.ticks = 0 then .error .noCorrectAnswer
      else if list.ticks = 1 ∧ forceMulti = false then .ok .singleChoice
      else .ok .multipleChoice := by
  have hsome : list.boxes ≠ 0 := fun hnone =>
    h.1 (List.length_eq_zero_iff.mp (hall.symm.trans hnone))
  rw [outcome, classify_filled h, if_neg hsome, if_pos hall, map_kind_choice]

theorem outcome_mixed (hsome : 0 < list.boxes) (hmore : list.boxes < list.items.length) :
    list.outcome forceMulti separator = .error .mixedCheckboxes := by
  rw [outcome, classify_filled h, if_neg hsome.ne', if_neg hmore.ne]
  rfl

end Filled

theorem outcome_of_decides {r : Except ClassifyError Kind}
    (h : list.Decides forceMulti separator r) : list.outcome forceMulti separator = r := by
  match r, h with
  | .error .emptyList, h => exact outcome_nil h
  | .error (.emptyItem _), ⟨_, _, _, hitems, hbefore, hblank, hposition⟩ =>
    rw [outcome_blank hitems hbefore hblank, hposition]
  | .ok .associativeMatching, ⟨h, hplain, hpaired⟩ => exact outcome_paired h hplain hpaired
  | .ok .enumeratedMatching, ⟨h, hplain, hpaired, hordered⟩ =>
    exact outcome_ordered h hplain hpaired hordered
  | .ok .numerical, ⟨h, hplain, hunordered, item, hitem, hnumber⟩ =>
    rw [outcome_single h hplain hunordered hitem, Item.kind_single, if_pos hnumber]
  | .ok .shortAnswer, ⟨h, hplain, hunordered, item, hitem, hnumber⟩ =>
    rw [outcome_single h hplain hunordered hitem, Item.kind_single, hnumber]
    rfl
  | .error (.ambiguous _), ⟨h, hplain, hpaired, hunordered, htwo, hn⟩ =>
    rw [outcome_ambiguous h hplain hpaired hunordered htwo, hn]
  | .error .mixedCheckboxes, ⟨h, hsome, hmore⟩ => exact outcome_mixed h hsome hmore
  | .error .noCorrectAnswer, ⟨h, hall, hnone⟩ => rw [outcome_choice h hall, if_pos hnone]
  | .ok .singleChoice, ⟨h, hall, hone, hforce⟩ =>
    rw [outcome_choice h hall, if_neg (by omega), if_pos ⟨hone, hforce⟩]
  | .ok .multipleChoice, ⟨h, hall, hsome, hmulti⟩ =>
    rw [outcome_choice h hall, if_neg hsome, if_neg hmulti]

theorem boxes_le (list : AnswerList) : list.boxes ≤ list.items.length := List.countP_le_length

theorem exists_decides (list : AnswerList) (forceMulti : Bool) (separator : Text) :
    ∃ r, list.Decides forceMulti separator r := by
  by_cases hne : list.items = []
  · exact ⟨.error .emptyList, hne⟩
  cases hblank : firstBlank? list.items with
  | some position => exact ⟨.error (.emptyItem position), firstBlank?_eq_some_iff.mp hblank⟩
  | none =>
    have h : list.Filled := ⟨hne, firstBlank?_eq_none_iff.mp hblank⟩
    have hle := list.boxes_le
    by_cases hplain : list.boxes = 0
    · by_cases hpaired : list.Paired separator
      · exact ⟨.ok .associativeMatching, h, hplain, hpaired⟩
      cases hordered : list.ordered with
      | true => exact ⟨.ok .enumeratedMatching, h, hplain, hpaired, hordered⟩
      | false =>
        match hitems : list.items, hne with
        | [item], _ =>
          cases hnumber : (NumericAnswer.ofText? item.text).isSome with
          | true => exact ⟨.ok .numerical, h, hplain, hordered, item, hitems, hnumber⟩
          | false => exact ⟨.ok .shortAnswer, h, hplain, hordered, item, hitems, hnumber⟩
        | first :: second :: rest, _ =>
          exact ⟨.error (.ambiguous _), h, hplain, hpaired, hordered, by simp [hitems], rfl⟩
    · by_cases hall : list.boxes = list.items.length
      · by_cases hnone : list.ticks = 0
        · exact ⟨.error .noCorrectAnswer, h, hall, hnone⟩
        · by_cases hsingle : list.ticks = 1 ∧ forceMulti = false
          · exact ⟨.ok .singleChoice, h, hall, hsingle⟩
          · exact ⟨.ok .multipleChoice, h, hall, hnone, hsingle⟩
      · exact ⟨.error .mixedCheckboxes, h, by omega, by omega⟩

theorem outcome_eq_iff {r : Except ClassifyError Kind} :
    list.outcome forceMulti separator = r ↔ list.Decides forceMulti separator r := by
  refine ⟨?_, outcome_of_decides⟩
  rintro rfl
  obtain ⟨r, hr⟩ := exists_decides list forceMulti separator
  rwa [outcome_of_decides hr]

theorem map_pair?_of_pairs? {items : List Item} {answers : List Answer}
    (h : pairs? separator items = some answers) :
    items.map (Item.pair? separator) = answers.map some := by
  rw [← List.forall₂_eq_eq_eq, List.forall₂_map_left_iff, List.forall₂_map_right_iff]
  exact forall₂_of_pairs? h

theorem choice_eq_ok {c : Classification} (h : choice list.items forceMulti = .ok c) :
    list.ticks ≠ 0 ∧
      c.kind = (if list.ticks = 1 ∧ forceMulti = false then .singleChoice else .multipleChoice) ∧
      c.answers = list.items.map (Item.option
        (credits c.kind list.ticks (list.items.length - list.ticks)).1
        (credits c.kind list.ticks (list.items.length - list.ticks)).2) := by
  rw [choice, ticks_eq] at h
  dsimp only at h
  split at h
  · cases h
  · rename_i hsome
    cases h
    exact ⟨hsome, by simp, rfl⟩

/-- One answer for each item, in their order, and each from its own item. -/
theorem answers_of_classify {c : Classification}
    (h : list.classify forceMulti separator = .ok c) :
    c.answers.map some = list.items.mapIdx fun i => Item.answerAs c.kind separator
      (credits c.kind list.ticks (list.items.length - list.ticks)) (i + 1) := by
  have hsame (f : Item → Option Answer) : list.items.map f = list.items.mapIdx fun _ => f :=
    List.ext_getElem? fun i => by simp
  obtain ⟨-, -, ⟨-, answers, hpairs, rfl⟩ | ⟨-, rfl⟩ | ⟨item, hitem, rfl⟩ | hchoice⟩ :=
    classify_eq_ok h
  · exact (map_pair?_of_pairs? hpairs).symm.trans (hsame _)
  · refine List.ext_getElem? fun i => ?_
    rw [List.getElem?_map, enumerated_getElem?, List.getElem?_mapIdx, Option.map_map, Nat.zero_add]
    rfl
  · rw [hitem, List.mapIdx_singleton]
    unfold Item.single
    cases hnumber : NumericAnswer.ofText? item.text <;> simp [Item.answerAs, Item.single, hnumber]
  · obtain ⟨-, hkind, hanswers⟩ := choice_eq_ok hchoice
    rw [hanswers, List.map_map]
    refine (hsame _).trans ?_
    rw [hkind]
    split_ifs <;> rfl

end AnswerList

/-- Every list meets the condition of exactly one row of the decision table, and that row is its
outcome. A list that is classified has one answer for each item, in their order, and each comes from
its own item, apart from the credits that options share and the position in an ordered answer. -/
theorem classify_decision (list : AnswerList) (forceMulti : Bool) (separator : Text) :
    (∃! r, list.Decides forceMulti separator r) ∧
    (∀ r, (list.classify forceMulti separator).map Classification.kind = r ↔
      list.Decides forceMulti separator r) ∧
    ∀ c, list.classify forceMulti separator = .ok c →
      c.answers.length = list.items.length ∧
      c.answers.map some = list.items.mapIdx fun i => Item.answerAs c.kind separator
        (AnswerList.credits c.kind list.ticks (list.items.length - list.ticks)) (i + 1) := by
  have houtcome (r : Except ClassifyError Kind) :
      (list.classify forceMulti separator).map Classification.kind = r ↔
        list.Decides forceMulti separator r := AnswerList.outcome_eq_iff
  refine ⟨⟨_, (houtcome _).mp rfl, fun r hr => ((houtcome r).mpr hr).symm⟩, houtcome, ?_⟩
  intro c hc
  have hanswers := AnswerList.answers_of_classify hc
  exact ⟨by simpa using congrArg List.length hanswers, hanswers⟩

theorem classify_decision_tag :
    let list : AnswerList :=
      ⟨false, [⟨"<b title=\"a:b\">k</b>: v".toList, "k: v".toList, none⟩,
        ⟨"x: y: z".toList, "x: y: z".toList, none⟩]⟩
    ∃ c, list.classify false ":".toList = .ok c ∧ c.answers.length = 2 ∧
      list.Decides false ":".toList (.ok .associativeMatching) := by
  intro list
  obtain ⟨-, hrow, hanswers⟩ := classify_decision list false ":".toList
  exact ⟨_, rfl, (hanswers _ rfl).1, (hrow _).mp rfl⟩

/-- A second separator does not help an item that begins with one. -/
theorem classify_separator_in_front :
    let items : List Item := [⟨": a : b".toList, ": a : b".toList, none⟩,
      ⟨"c : d".toList, "c : d".toList, none⟩]
    (∀ item ∈ items, ∃ key value, Text.OutsideTags ":".toList false item.html key value ∧
      Text.isAllBlank key = false ∧ Text.isAllBlank value = false) ∧
    AnswerList.classify ⟨false, items⟩ false ":".toList = .error (.ambiguous 2) := by
  intro items
  have hsplit (key value : Text) (hkey : '<' ∉ key) :
      Text.OutsideTags ":".toList false (key ++ ":".toList ++ value) key value := by
    refine ⟨rfl, ?_, ':', rfl, by decide⟩
    rintro (⟨⟨⟩, -⟩ | ⟨before, tag, rfl, -⟩)
    exact hkey (by simp)
  refine ⟨List.forall_mem_cons.mpr ⟨?_, List.forall_mem_singleton.mpr ?_⟩, rfl⟩
  · exact ⟨_, _, hsplit ": a ".toList " b".toList (by decide), rfl, rfl⟩
  · exact ⟨_, _, hsplit "c ".toList " d".toList (by decide), rfl, rfl⟩

end Quizdown
