/-!
Membership in a table of code point ranges, which stand in ascending order.
-/
set_option autoImplicit false

namespace Quizdown
namespace Text

/-- Looks for the range that holds `n` among those with index `low` up to `high`, by halving. -/
def searchRanges (table : Array (Nat × Nat)) (n : Nat) : Nat → Nat → Nat → Bool
  | 0, _, _ => false
  | steps + 1, low, high =>
    if low < high then
      let middle := (low + high) / 2
      match table[middle]? with
      | some (first, last) =>
        if n < first then searchRanges table n steps low middle
        else if last < n then searchRanges table n steps (middle + 1) high
        else true
      | none => false
    else false

def inRanges (table : Array (Nat × Nat)) (n : Nat) : Bool :=
  searchRanges table n (table.size + 1) 0 table.size

end Text
end Quizdown
