import Interhart.HartSet

/-!
# Ranges of harts

A device serves the harts of one range, which may be empty.
-/

namespace Interhart

/-- The harts `first`, `first + 1`, …, `first + count - 1`. -/
structure HartRange where
  first : Nat
  count : Nat
deriving DecidableEq

namespace HartRange

def stop (range : HartRange) : Nat := range.first + range.count

def contains (range : HartRange) (hart : Nat) : Bool :=
  decide (range.first ≤ hart ∧ hart < range.stop)

def toList (range : HartRange) : List Nat := List.range' range.first range.count

def text (range : HartRange) : String := s!"{range.first}..{range.stop}"

theorem contains_iff {range : HartRange} {hart : Nat} :
    range.contains hart = true ↔ range.first ≤ hart ∧ hart < range.stop := by
  simp [contains]

theorem mem_toList {range : HartRange} {hart : Nat} :
    hart ∈ range.toList ↔ range.contains hart = true := by
  rw [contains_iff, toList, stop, List.mem_range'_1]

end HartRange
end Interhart
