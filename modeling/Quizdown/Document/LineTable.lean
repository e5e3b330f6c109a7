import Quizdown.Text.Basic

/-!
The lines of a text, as the byte positions at which they start. The line of a position is found by
binary search among them.
-/
set_option autoImplicit false

namespace Quizdown

namespace Text

def bytePositions (mark : Char) : Nat → Text → List Nat
  | _, [] => []
  | start, c :: s =>
    let behind := bytePositions mark (start + c.utf8Size) s
    if c = mark then start :: behind else behind

theorem le_of_mem_bytePositions {mark : Char} {start i : Nat} {s : Text}
    (h : i ∈ bytePositions mark start s) : start ≤ i := by
  induction s generalizing start with
  | nil => cases h
  | cons c s ih =>
    have hbehind (hi : i ∈ bytePositions mark (start + c.utf8Size) s) : start ≤ i :=
      Nat.le_trans (Nat.le_add_right ..) (ih hi)
    rw [bytePositions] at h
    split at h
    · rcases List.mem_cons.mp h with rfl | hi
      · exact Nat.le_refl i
      · exact hbehind hi
    · exact hbehind h

theorem bytePositions_increasing (mark : Char) (start : Nat) (s : Text) :
    (bytePositions mark start s).Pairwise (· < ·) := by
  induction s generalizing start with
  | nil => exact .nil
  | cons c s ih =>
    rw [bytePositions]
    split
    · refine .cons (fun i hi => ?_) (ih _)
      exact Nat.lt_of_lt_of_le (Nat.lt_add_of_pos_right c.utf8Size_pos) (le_of_mem_bytePositions hi)
    · exact ih _

end Text

inductive Finding
  | found (index : Nat)
  /-- The number stands nowhere; with it at this index the table would still ascend. -/
  | missing (index : Nat)
deriving DecidableEq, Repr

def binarySearch (table : Array Nat) (x low high : Nat) (bound : high ≤ table.size) : Finding :=
  if h : low < high then
    let middle := low + (high - low) / 2
    have : middle < table.size := by omega
    if table[middle] = x then .found middle
    else if table[middle] < x then binarySearch table x (middle + 1) high bound
    else binarySearch table x low middle (by omega)
  else .missing low
termination_by high - low

structure LineTable where
  starts : Array Nat
  increasing : starts.toList.Pairwise (· < ·)

namespace LineTable

/-- The first line starts with the text, each other line behind a line feed. -/
def ofText (source : Text) : LineTable where
  starts := (0 :: (Text.bytePositions '\n' 0 source).map (· + 1)).toArray
  increasing := by
    refine .cons (fun i hi => ?_) ?_
    · obtain ⟨feed, -, rfl⟩ := List.mem_map.mp hi
      exact Nat.succ_pos feed
    · exact (Text.bytePositions_increasing '\n' 0 source).map _ fun _ _ => Nat.succ_lt_succ

def lineOf (lines : LineTable) (offset : Nat) : Nat :=
  match binarySearch lines.starts offset 0 lines.starts.size (Nat.le_refl _) with
  | .found index => index + 1
  | .missing index => index

end LineTable
end Quizdown
