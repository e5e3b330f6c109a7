import Quizdown.AnswerList
import Quizdown.Proofs.Text.Search

/-! Where a text is split at a separator: at the first one that begins outside the tags. -/
set_option autoImplicit false

namespace Quizdown
namespace Text

/-- The end of the text is inside a tag: no `>` comes behind the last `<`. The flag says that the
text begins inside one. -/
def EndsInTag (inTag : Bool) (s : Text) : Prop :=
  inTag = true ∧ '>' ∉ s ∨ ∃ before tag, s = before ++ '<' :: tag ∧ '>' ∉ tag

/-- A separator that begins outside the tags, `key` being in front of it and `value` behind it. The
character `<` begins a tag. -/
structure OutsideTags (separator : Text) (inTag : Bool) (s key value : Text) : Prop where
  text : s = key ++ separator ++ value
  outside : ¬ EndsInTag inTag key
  head : ∃ c ∈ separator.head?, c ≠ '<'

structure FirstOutsideTags (separator : Text) (inTag : Bool) (s key value : Text) : Prop extends
    OutsideTags separator inTag s key value where
  first : ∀ k v, OutsideTags separator inTag s k v → key.length ≤ k.length

variable {separator s key value : Text} {inTag : Bool} {c : Char}

theorem endsInTag_nil : EndsInTag inTag [] ↔ inTag = true := by simp [EndsInTag]

theorem endsInTag_cons :
    EndsInTag inTag (c :: s) ↔ EndsInTag (decide (c = '<') || inTag && decide (c ≠ '>')) s := by
  have hbegun : (∃ before tag, c :: s = before ++ '<' :: tag ∧ '>' ∉ tag) ↔
      c = '<' ∧ '>' ∉ s ∨ ∃ before tag, s = before ++ '<' :: tag ∧ '>' ∉ tag := by
    constructor
    · rintro ⟨_ | ⟨d, before⟩, tag, htext, htag⟩
      · obtain ⟨rfl, rfl⟩ := List.cons.inj htext
        exact .inl ⟨rfl, htag⟩
      · obtain ⟨rfl, rfl⟩ := List.cons.inj htext
        exact .inr ⟨before, tag, rfl, htag⟩
    · rintro (⟨rfl, htag⟩ | ⟨before, tag, rfl, htag⟩)
      · exact ⟨[], s, rfl, htag⟩
      · exact ⟨c :: before, tag, rfl, htag⟩
  simp only [EndsInTag, hbegun, List.mem_cons, not_or, Bool.or_eq_true, Bool.and_eq_true,
    decide_eq_true_eq, ne_comm (a := '>'), ne_eq]
  rw [or_and_right, and_assoc, or_assoc, or_left_comm]

theorem outsideTags_cons_cons {k : Text} : OutsideTags separator inTag (c :: s) (c :: k) value ↔
    OutsideTags separator (decide (c = '<') || inTag && decide (c ≠ '>')) s k value := by
  constructor <;> rintro ⟨htext, houtside, hhead⟩
  · exact ⟨(List.cons.inj htext).2, endsInTag_cons.not.mp houtside, hhead⟩
  · exact ⟨congrArg (c :: ·) htext, endsInTag_cons.not.mpr houtside, hhead⟩

theorem outsideTags_cons (hbehind : inTag = false → ¬ separator <+: c :: s) :
    OutsideTags separator inTag (c :: s) key value ↔ ∃ k, key = c :: k ∧
      OutsideTags separator (decide (c = '<') || inTag && decide (c ≠ '>')) s k value := by
  constructor
  · intro h
    cases key with
    | nil =>
      have hout : inTag = false := by simpa [endsInTag_nil] using h.outside
      exact absurd ⟨value, h.text.symm⟩ (hbehind hout)
    | cons d k =>
      obtain ⟨rfl, -⟩ := List.cons.inj h.text
      exact ⟨k, rfl, outsideTags_cons_cons.mp h⟩
  · rintro ⟨k, rfl, h⟩
    exact outsideTags_cons_cons.mpr h

theorem firstOutsideTags_cons (hbehind : inTag = false → ¬ separator <+: c :: s) :
    FirstOutsideTags separator inTag (c :: s) key value ↔ ∃ k, key = c :: k ∧
      FirstOutsideTags separator (decide (c = '<') || inTag && decide (c ≠ '>')) s k value := by
  constructor
  · rintro ⟨hfound, hfirst⟩
    obtain ⟨k, rfl, hk⟩ := (outsideTags_cons hbehind).mp hfound
    refine ⟨k, rfl, hk, fun x v hx => ?_⟩
    simpa using hfirst (c :: x) v (outsideTags_cons_cons.mpr hx)
  · rintro ⟨k, rfl, hk, hfirst⟩
    refine ⟨outsideTags_cons_cons.mpr hk, fun x v hx => ?_⟩
    obtain ⟨y, rfl, hy⟩ := (outsideTags_cons hbehind).mp hx
    simpa using hfirst y v hy

theorem firstOutsideTags_append (hhead : ∃ c ∈ separator.head?, c ≠ '<') (rest : Text) :
    FirstOutsideTags separator false (separator ++ rest) key value ↔ key = [] ∧ value = rest := by
  have hstart : OutsideTags separator false (separator ++ rest) [] rest :=
    ⟨rfl, by simp [endsInTag_nil], hhead⟩
  constructor
  · rintro ⟨hfound, hfirst⟩
    obtain rfl : key = [] := List.length_eq_zero_iff.mp (Nat.le_zero.mp (hfirst [] rest hstart))
    exact ⟨rfl, (List.append_cancel_left hfound.text).symm⟩
  · rintro ⟨rfl, rfl⟩
    exact ⟨hstart, fun k v _ => Nat.zero_le _⟩

theorem splitOutsideTagsFrom_eq_some_iff (hhead : ∃ c ∈ separator.head?, c ≠ '<') :
    splitOutsideTagsFrom separator inTag s = some (key, value) ↔
      FirstOutsideTags separator inTag s key value := by
  induction s generalizing inTag key with
  | nil =>
    refine ⟨fun h => (by cases h), fun h => ?_⟩
    obtain ⟨-, rfl, -⟩ : key = [] ∧ separator = [] ∧ value = [] := by
      simpa using h.text.symm
    obtain ⟨c, hc, -⟩ := hhead
    cases hc
  | cons c s ih =>
    -- where the separator does not begin here, both sides go on behind the character
    have hbehind (b : Bool) (hsplit : splitOutsideTagsFrom separator inTag (c :: s) =
          (splitOutsideTagsFrom separator b s).map fun found => (c :: found.1, found.2))
        (hb : (decide (c = '<') || inTag && decide (c ≠ '>')) = b)
        (hnot : inTag = false → ¬ separator <+: c :: s) :
        splitOutsideTagsFrom separator inTag (c :: s) = some (key, value) ↔
          FirstOutsideTags separator inTag (c :: s) key value := by
      rw [hsplit, firstOutsideTags_cons hnot, hb]
      simp only [← ih, Option.map_eq_some_iff, Prod.exists, Prod.mk.injEq]
      constructor
      · rintro ⟨k, v, hfound, rfl, rfl⟩
        exact ⟨k, rfl, hfound⟩
      · rintro ⟨k, rfl, hfound⟩
        exact ⟨k, value, hfound, rfl, rfl⟩
    by_cases hc : c = '<'
    · refine hbehind true (by rw [splitOutsideTagsFrom, if_pos hc]) (by simp [hc]) ?_
      rintro - ⟨rest, hrest⟩
      obtain ⟨d, hd, hne⟩ := hhead
      cases separator with
      | nil => cases hd
      | cons e separator =>
        cases hd
        exact hne ((List.cons.inj hrest).1.trans hc)
    · cases inTag with
      | true =>
        exact hbehind (decide (c ≠ '>')) (by rw [splitOutsideTagsFrom, if_neg hc, if_pos rfl])
          (by simp [hc]) (by simp)
      | false =>
        cases hstrip : stripPrefix? separator (c :: s) with
        | some rest =>
          have hsplit : splitOutsideTagsFrom separator false (c :: s) = some ([], rest) := by
            simp [splitOutsideTagsFrom, hc, hstrip]
          rw [hsplit, stripPrefix?_eq_some_iff.mp hstrip, firstOutsideTags_append hhead]
          simp [eq_comm]
        | none =>
          exact hbehind false (by simp [splitOutsideTagsFrom, hc, hstrip]) (by simp [hc])
            fun _ => stripPrefix?_eq_none_iff.mp hstrip

/-- A separator that begins a tag is never outside them. -/
theorem splitOutsideTagsFrom_lt (separator : Text) :
    splitOutsideTagsFrom ('<' :: separator) inTag s = none := by
  induction s generalizing inTag with
  | nil => rfl
  | cons c s ih =>
    rw [splitOutsideTagsFrom]
    split_ifs with hc hin
    · rw [ih, Option.map_none]
    · rw [ih, Option.map_none]
    · have hstrip : stripPrefix? ('<' :: separator) (c :: s) = none :=
        stripPrefix?_eq_none_iff.mpr fun h => hc (List.cons_prefix_cons.mp h).1.symm
      rw [hstrip, ih]
      rfl

theorem splitOutsideTags_eq_some_iff : splitOutsideTags separator s = some (key, value) ↔
    FirstOutsideTags separator false s key value := by
  cases separator with
  | nil =>
    refine ⟨nofun, fun h => ?_⟩
    obtain ⟨c, hc, -⟩ := h.head
    cases hc
  | cons c separator =>
    rw [splitOutsideTags, if_neg (by simp)]
    by_cases hc : c = '<'
    · rw [hc, splitOutsideTagsFrom_lt]
      refine ⟨nofun, fun h => ?_⟩
      obtain ⟨d, hd, hne⟩ := h.head
      cases hd
      exact absurd rfl hne
    · exact splitOutsideTagsFrom_eq_some_iff ⟨c, rfl, hc⟩

theorem exists_firstOutsideTags (h : OutsideTags separator inTag s key value) :
    ∃ k v, FirstOutsideTags separator inTag s k v := by
  induction hn : key.length using Nat.strongRecOn generalizing key value with
  | ind n ih =>
    by_cases hfirst : ∀ k v, OutsideTags separator inTag s k v → key.length ≤ k.length
    · exact ⟨key, value, h, hfirst⟩
    · obtain ⟨k, v, hk, hless⟩ : ∃ k v, OutsideTags separator inTag s k v ∧
          k.length < key.length := by simpa using hfirst
      exact ih k.length (hn ▸ hless) hk rfl

/-! Positions in a text, told without a flag that is carried along. -/

/-- A position is inside a tag if there is no `>` between it and some `<` in front of it. -/
def InsideTag (s : Text) (position : Nat) : Prop :=
  ∃ i < position, s[i]? = some '<' ∧ ∀ j, i < j → j < position → s[j]? ≠ some '>'

theorem insideTag_append {rest : Text} :
    InsideTag (key ++ rest) key.length ↔ EndsInTag false key := by
  constructor
  · rintro ⟨i, hi, hbegun, hopen⟩
    rw [List.getElem?_append_left hi] at hbegun
    refine .inr ⟨key.take i, key.drop (i + 1), ?_, fun hmem => ?_⟩
    · obtain ⟨_, hget⟩ := List.getElem?_eq_some_iff.mp hbegun
      rw [← hget, List.getElem_cons_drop, List.take_append_drop]
    · obtain ⟨j, hj⟩ := List.mem_iff_getElem?.mp hmem
      rw [List.getElem?_drop] at hj
      obtain ⟨hlt, -⟩ := List.getElem?_eq_some_iff.mp hj
      exact hopen (i + 1 + j) (by omega) hlt (by rw [List.getElem?_append_left hlt, hj])
  · rintro (⟨hflag, -⟩ | ⟨before, tag, rfl, hclosed⟩)
    · cases hflag
    · refine ⟨before.length, by simp, by simp, fun j hbegun hj hclose => hclosed ?_⟩
      obtain ⟨d, rfl⟩ := Nat.exists_eq_add_of_lt hbegun
      rw [List.getElem?_append_left hj, Nat.add_assoc, List.getElem?_append_right (by omega),
        Nat.add_sub_cancel_left, List.getElem?_cons_succ] at hclose
      exact List.mem_of_getElem? hclose

theorem outsideTags_iff (hhead : ∃ c ∈ separator.head?, c ≠ '<') :
    OutsideTags separator false s key value ↔
      s = key ++ separator ++ value ∧ ¬ InsideTag s key.length := by
  constructor
  · rintro ⟨rfl, houtside, -⟩
    exact ⟨rfl, by rwa [List.append_assoc, insideTag_append]⟩
  · rintro ⟨rfl, houtside⟩
    rw [List.append_assoc, insideTag_append] at houtside
    exact ⟨rfl, houtside, hhead⟩

theorem prefix_drop_iff (hseparator : separator ≠ []) {i : Nat} : separator <+: s.drop i ↔
    ∃ key value, key.length = i ∧ s = key ++ separator ++ value := by
  constructor
  · rintro ⟨value, hvalue⟩
    have hi : i ≤ s.length := by
      by_contra hbehind
      rw [List.drop_eq_nil_of_le (by omega), List.append_eq_nil_iff] at hvalue
      exact hseparator hvalue.1
    refine ⟨s.take i, value, List.length_take_of_le hi, ?_⟩
    rw [List.append_assoc, hvalue, List.take_append_drop]
  · rintro ⟨key, value, rfl, rfl⟩
    rw [List.append_assoc, List.drop_left]
    exact List.prefix_append separator value

/-- A text is split at the first place where the separator stands outside the tags, and only if
there is such a place. -/
theorem splitOutsideTags_first (s : Text) (hseparator : separator ≠ [])
    (hhead : separator.head? ≠ some '<') :
    (∀ key value, splitOutsideTags separator s = some (key, value) ↔
        s = key ++ separator ++ value ∧ ¬ InsideTag s key.length ∧
          ∀ i < key.length, separator <+: s.drop i → InsideTag s i) ∧
      (splitOutsideTags separator s = none ↔
        ∀ i, separator <+: s.drop i → InsideTag s i) := by
  have hfirst : ∃ c ∈ separator.head?, c ≠ '<' := by
    obtain ⟨c, rest, rfl⟩ := List.exists_cons_of_ne_nil hseparator
    exact ⟨c, rfl, fun hc => hhead (congrArg some hc)⟩
  constructor
  · intro key value
    rw [splitOutsideTags_eq_some_iff]
    constructor
    · rintro ⟨hfound, hearliest⟩
      obtain ⟨htext, houtside⟩ := (outsideTags_iff hfirst).mp hfound
      refine ⟨htext, houtside, fun i hi hstands => ?_⟩
      obtain ⟨k, v, rfl, hk⟩ := (prefix_drop_iff hseparator).mp hstands
      by_contra hnot
      exact absurd (hearliest k v ((outsideTags_iff hfirst).mpr ⟨hk, hnot⟩)) (Nat.not_le.mpr hi)
    · rintro ⟨htext, houtside, hearliest⟩
      refine ⟨(outsideTags_iff hfirst).mpr ⟨htext, houtside⟩, fun k v hfound => ?_⟩
      obtain ⟨hk, hnot⟩ := (outsideTags_iff hfirst).mp hfound
      by_contra hless
      exact hnot (hearliest k.length (Nat.not_le.mp hless)
        ((prefix_drop_iff hseparator).mpr ⟨k, v, rfl, hk⟩))
  · rw [Option.eq_none_iff_forall_ne_some]
    constructor
    · intro hnone i hstands
      obtain ⟨k, v, rfl, hk⟩ := (prefix_drop_iff hseparator).mp hstands
      by_contra hnot
      obtain ⟨k', v', hfound⟩ :=
        exists_firstOutsideTags ((outsideTags_iff hfirst).mpr ⟨hk, hnot⟩)
      exact hnone (k', v') (splitOutsideTags_eq_some_iff.mpr hfound)
    · rintro hall ⟨key, value⟩ hsplit
      obtain ⟨htext, houtside⟩ :=
        (outsideTags_iff hfirst).mp (splitOutsideTags_eq_some_iff.mp hsplit).toOutsideTags
      exact houtside (hall key.length
        ((prefix_drop_iff hseparator).mpr ⟨key, value, rfl, htext⟩))

theorem splitOutsideTags_first_closing :
    ">>".toList ≠ [] ∧ ">>".toList.head? ≠ some '<' ∧
      splitOutsideTags ">>".toList "<b>ü</b>>>> x".toList =
        some ("<b>ü</b>".toList, "> x".toList) ∧
      InsideTag "<b>ü</b>>>> x".toList 7 ∧ ¬ InsideTag "<b>ü</b>>>> x".toList 8 ∧
      splitOutsideTags ">>".toList "<b>> x".toList = none ∧ InsideTag "<b>> x".toList 2 := by
  have hseparator : ">>".toList ≠ [] := by decide
  have hhead : ">>".toList.head? ≠ some '<' := by decide
  have hsplit : splitOutsideTags ">>".toList "<b>ü</b>>>> x".toList =
      some ("<b>ü</b>".toList, "> x".toList) := rfl
  have hnone : splitOutsideTags ">>".toList "<b>> x".toList = none := rfl
  obtain ⟨-, houtside, hearlier⟩ := ((splitOutsideTags_first _ hseparator hhead).1 _ _).mp hsplit
  exact ⟨hseparator, hhead, hsplit, hearlier 7 (by decide) (by decide), houtside, hnone,
    (splitOutsideTags_first _ hseparator hhead).2.mp hnone 2 (by decide)⟩

end Text
end Quizdown
