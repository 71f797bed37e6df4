-- Classes of characters, given as ranges of code points.

namespace StackLang.Text

-- Each pair is the first and the last code point of a range.
abbrev Ranges := List (Nat × Nat)

def Ranges.holds (ranges : Ranges) (n : Nat) : Bool :=
  ranges.any fun range => range.1 ≤ n && n ≤ range.2

theorem Ranges.holds_iff (ranges : Ranges) (n : Nat) :
    ranges.holds n = true ↔ ∃ range ∈ ranges, range.1 ≤ n ∧ n ≤ range.2 := by
  simp [Ranges.holds]

end StackLang.Text
