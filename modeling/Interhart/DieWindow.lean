import Interhart.HartRange
import Interhart.Registers

/-!
# Die windows

On packages of several dies a device has copies of its register block.  A window lists
the copy that serves the harts from a given one onwards, up to the next window.
-/

namespace Interhart

/-- A copy of a register block, for the harts from `first` onwards. -/
structure DieWindow where
  first : Nat
  offset : UInt64
deriving DecidableEq

namespace DieWindow

/-- The block that serves a hart and the place of the hart in it.  Harts below every window
are served by the primary block, where places count from `first`. -/
def locate (base : UInt64) (first : Nat) (windows : List DieWindow) (hart : Nat) :
    RegisterBlock × Nat :=
  match windows.reverse.find? fun window => decide (window.first ≤ hart) with
  | some window => ((RegisterBlock.mk base).shift window.offset, hart - window.first)
  | none => (⟨base⟩, hart - first)

/-- Whether windows that follow one at `previous` split the harts below `stop`: each starts
after the one before it, with an aligned offset of its own. -/
def areValid (previous stop : Nat) (alignment : UInt64) : List DieWindow → Bool
  | [] => true
  | window :: rest =>
      decide (previous < window.first ∧ window.first < stop) &&
        decide (window.offset ≠ 0 ∧ window.offset % alignment = 0) &&
        areValid window.first stop alignment rest

end DieWindow

def deviceHartLimit : Nat := 4095

def HartRange.isServable (range : HartRange) : Bool :=
  decide (range.first < hartLimit ∧ range.count ≤ deviceHartLimit ∧ range.stop ≤ hartLimit)

end Interhart
