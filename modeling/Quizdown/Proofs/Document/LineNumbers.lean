import Quizdown.Document.Basic
import Mathlib.Data.List.Basic
import Mathlib.Order.Monotone.Defs
import Mathlib.Order.Nat

/-! The line of a byte position is one more than the number of line feeds in front of it. Whether
the search ends at the start of a line or between two, its answer is the number of lines that have
begun there. -/
set_option autoImplicit false

namespace Quizdown

/-! Search in an ascending table. -/

section Search

variable {table : Array Nat} {x low high : Nat}

theorem getElem_lt_of_increasing (h : table.toList.Pairwise (· < ·)) {i j : Nat} (hij : i < j)
    (hj : j < table.size) : table[i] < table[j] :=
  List.pairwise_iff_getElem.mp h i j (Nat.lt_trans hij hj) hj hij

theorem getElem_le_of_increasing (h : table.toList.Pairwise (· < ·)) {i j : Nat} (hij : i ≤ j)
    (hj : j < table.size) : table[i] ≤ table[j] := by
  rcases Nat.lt_or_eq_of_le hij with hlt | rfl
  · exact Nat.le_of_lt (getElem_lt_of_increasing h hlt hj)
  · exact Nat.le_refl _

/-- If the number is in the table, it is between `low` and `high`. -/
structure SearchWindow (table : Array Nat) (x low high : Nat) : Prop where
  smaller : ∀ i (hi : i < table.size), i < low → table[i] < x
  larger : ∀ i (hi : i < table.size), high ≤ i → x < table[i]

theorem searchWindow_whole (table : Array Nat) (x : Nat) : SearchWindow table x 0 table.size :=
  ⟨fun _ _ h => absurd h (Nat.not_lt_zero _), fun _ hi h => absurd hi (Nat.not_lt.mpr h)⟩

theorem SearchWindow.behind (h : table.toList.Pairwise (· < ·))
    (w : SearchWindow table x low high) {middle : Nat} (hmiddle : middle < table.size)
    (hlt : table[middle] < x) : SearchWindow table x (middle + 1) high := by
  refine ⟨fun i hi hbefore => ?_, w.larger⟩
  have hle := getElem_le_of_increasing h (Nat.le_of_lt_succ hbefore) hmiddle
  exact Nat.lt_of_le_of_lt hle hlt

theorem SearchWindow.inFront (h : table.toList.Pairwise (· < ·))
    (w : SearchWindow table x low high) {middle : Nat} (hmiddle : middle < table.size)
    (hlt : x < table[middle]) : SearchWindow table x low middle := by
  refine ⟨w.smaller, fun i hi hbehind => ?_⟩
  have hle := getElem_le_of_increasing h hbehind hi
  exact Nat.lt_of_lt_of_le hlt hle

inductive Finding.Holds (table : Array Nat) (x : Nat) : Finding → Prop
  | found {i : Nat} (hi : i < table.size) (h : table[i] = x) : Holds table x (.found i)
  | missing {i : Nat} (hi : i ≤ table.size) (w : SearchWindow table x i i) :
    Holds table x (.missing i)

theorem holds_binarySearch (h : table.toList.Pairwise (· < ·)) {bound : high ≤ table.size}
    (hle : low ≤ high) (w : SearchWindow table x low high) :
    (binarySearch table x low high bound).Holds table x := by
  fun_induction binarySearch table x low high bound with
  | case1 low high bound hlt middle hmiddle heq => exact .found hmiddle heq
  | case2 low high bound hlt middle hmiddle hne hless ih =>
    exact ih (by omega) (w.behind h hmiddle hless)
  | case3 low high bound hlt middle hmiddle hne hnot ih =>
    exact ih (by omega) (w.inFront h hmiddle (by omega))
  | case4 low high bound hnot =>
    obtain rfl : low = high := by omega
    exact .missing bound w

/-- Where exactly the first `n` entries are not above a number, `n` of all entries are not. -/
theorem countP_le_eq {n : Nat} (hn : n ≤ table.size)
    (hfirst : ∀ i (hi : i < table.size), i < n → table[i] ≤ x)
    (hlast : ∀ i (hi : i < table.size), n ≤ i → x < table[i]) :
    table.toList.countP (· ≤ x) = n := by
  have htake : (table.toList.take n).countP (· ≤ x) = n := by
    rw [List.countP_eq_length.mpr, List.length_take, Array.length_toList, Nat.min_eq_left hn]
    intro y hy
    obtain ⟨i, hi, rfl⟩ := List.mem_take_iff_getElem.mp hy
    obtain ⟨hlt, hsize⟩ := Nat.lt_min.mp hi
    exact decide_eq_true (hfirst i hsize hlt)
  have hdrop : (table.toList.drop n).countP (· ≤ x) = 0 := by
    rw [List.countP_eq_zero]
    intro y hy
    obtain ⟨i, hi, rfl⟩ := List.mem_drop_iff_getElem.mp hy
    simpa [Nat.add_comm] using hlast (i + n) hi (Nat.le_add_left n i)
  rw [← List.take_append_drop n table.toList, List.countP_append, htake, hdrop, Nat.add_zero]

end Search

theorem LineTable.lineOf_eq (lines : LineTable) (offset : Nat) :
    lines.lineOf offset = lines.starts.toList.countP (· ≤ offset) := by
  have hholds : (binarySearch lines.starts offset 0 lines.starts.size (Nat.le_refl _)).Holds
      lines.starts offset :=
    holds_binarySearch lines.increasing (Nat.zero_le _) (searchWindow_whole lines.starts offset)
  rw [lineOf]
  cases hsearch : binarySearch lines.starts offset 0 lines.starts.size (Nat.le_refl _) with
  | found index =>
    rw [hsearch] at hholds
    obtain ⟨hindex, rfl⟩ := hholds
    -- the line that starts at the position has begun
    refine (countP_le_eq hindex (fun i hi hbefore => ?_) fun i hi hbehind => ?_).symm
    · exact getElem_le_of_increasing lines.increasing (Nat.le_of_lt_succ hbefore) hindex
    · exact getElem_lt_of_increasing lines.increasing hbehind hi
  | missing index =>
    rw [hsearch] at hholds
    obtain - | ⟨hindex, w⟩ := hholds
    exact (countP_le_eq hindex (fun i hi h => Nat.le_of_lt (w.smaller i hi h)) w.larger).symm

/-! Line feeds among the bytes of a text. -/

def lineFeed : UInt8 := 10

namespace Text

variable {c : Char}

def bytes (s : Text) : List UInt8 := s.flatMap String.utf8EncodeChar

theorem lineFeed_eq_ofNat_iff {n : Nat} : lineFeed = UInt8.ofNat n ↔ n % 256 = 10 := by
  rw [← UInt8.toNat_inj, UInt8.toNat_ofNat', lineFeed, eq_comm]
  rfl

/-- The byte of a line feed is part of no other character. -/
theorem lineFeed_mem_utf8EncodeChar_iff : lineFeed ∈ String.utf8EncodeChar c ↔ c = '\n' := by
  constructor
  · intro h
    have hcode : c.val.toNat = 10 := by
      rw [String.utf8EncodeChar] at h
      generalize c.val.toNat = code at h
      split_ifs at h <;>
        simp only [List.mem_cons, List.not_mem_nil, or_false, lineFeed_eq_ofNat_iff] at h <;>
        omega
    exact Char.ext (UInt32.toNat_inj.mp hcode)
  · rintro rfl
    decide

theorem count_take_utf8EncodeChar (n : Nat) :
    ((String.utf8EncodeChar c).take n).count lineFeed = if c = '\n' ∧ 0 < n then 1 else 0 := by
  by_cases hc : c = '\n'
  · subst hc
    cases n with
    | zero => rfl
    | succ n => simp [String.utf8EncodeChar, lineFeed]
  · rw [if_neg fun h => hc h.1, List.count_eq_zero]
    exact fun hmem => hc (lineFeed_mem_utf8EncodeChar_iff.mp (List.mem_of_mem_take hmem))

theorem countP_bytePositions (start offset : Nat) (s : Text) :
    (bytePositions '\n' start s).countP (· < offset) =
      (s.bytes.take (offset - start)).count lineFeed := by
  induction s generalizing start with
  | nil => simp [bytePositions, bytes]
  | cons c s ih =>
    have hbehind : offset - start - c.utf8Size = offset - (start + c.utf8Size) := by omega
    rw [bytes, List.flatMap_cons, ← bytes, List.take_append, String.length_utf8EncodeChar,
      List.count_append, count_take_utf8EncodeChar, hbehind, ← ih, bytePositions]
    simp only [Nat.sub_pos_iff_lt]
    by_cases hc : c = '\n'
    · simp [hc, List.countP_cons, Nat.add_comm]
    · simp [hc]

end Text

namespace LineTable

theorem lineOf_ofText (source : Text) (offset : Nat) :
    (ofText source).lineOf offset = 1 + (source.bytes.take offset).count lineFeed := by
  have hbegun : (fun i => decide (i ≤ offset)) ∘ (· + 1) = fun i => decide (i < offset) := rfl
  rw [lineOf_eq, ofText, List.toList_toArray, List.countP_cons_of_pos (by simp), List.countP_map,
    hbegun, Text.countP_bytePositions, Nat.sub_zero, Nat.add_comm]

theorem lineOf_ofText_succ (source : Text) (offset : Nat) :
    (ofText source).lineOf (offset + 1) =
      (ofText source).lineOf offset + if source.bytes[offset]? = some lineFeed then 1 else 0 := by
  rw [lineOf_ofText, lineOf_ofText, List.take_add_one, List.count_append, ← Nat.add_assoc]
  cases source.bytes[offset]? with
  | none => rfl
  | some byte => by_cases hbyte : byte = lineFeed <;> simp [hbyte]

/-- Lines are counted from 1 by the line feeds in front of a position. So they never go back, and
each line feed leads to the next line. -/
theorem lineOf_counts_lineFeeds (source : Text) :
    (∀ offset, (ofText source).lineOf offset = 1 + (source.bytes.take offset).count lineFeed) ∧
      (∀ offset, 1 ≤ (ofText source).lineOf offset) ∧
      Monotone (ofText source).lineOf ∧
      ∀ offset, (ofText source).lineOf (offset + 1) =
        (ofText source).lineOf offset + if source.bytes[offset]? = some lineFeed then 1 else 0 := by
  refine ⟨lineOf_ofText source, fun offset => ?_, fun a b hab => ?_, lineOf_ofText_succ source⟩
  · rw [lineOf_ofText]
    exact Nat.le_add_right ..
  · rw [lineOf_ofText, lineOf_ofText]
    exact Nat.add_le_add_left ((List.take_prefix_take_left hab).sublist.count_le _) 1

end LineTable

-- The last line needs no line feed at its end.
example : [0, 1, 2, 3, 5, 6, 7].map (lineOf "a\nbc\n\nd".toList) = [1, 1, 2, 2, 3, 4, 4] := by
  cbv

end Quizdown
