import Interhart.HartSet

/-!
# Shared sets of harts

A set that several harts update is kept in two words, and each update changes one of
them at a stroke.  Loading it gives the set; the updates are those of sets.
-/

namespace Interhart

/-- A set of harts as two words, the first 64 harts in `low`. -/
structure SharedHartSet where
  low : BitVec 64
  high : BitVec 64
deriving DecidableEq

namespace SharedHartSet

def ofSet (s : HartSet) : SharedHartSet := ⟨s.low, s.high⟩

def load (shared : SharedHartSet) : HartSet := ⟨shared.low, shared.high⟩

def contains (shared : SharedHartSet) (hart : Nat) : Bool :=
  if hart < 64 then shared.low.getLsbD hart else shared.high.getLsbD (hart - 64)

def insert (shared : SharedHartSet) (hart : Nat) : SharedHartSet :=
  if hart < 64 then { shared with low := shared.low ||| BitVec.twoPow 64 hart }
  else if hart < hartLimit then
    { shared with high := shared.high ||| BitVec.twoPow 64 (hart - 64) }
  else shared

def erase (shared : SharedHartSet) (hart : Nat) : SharedHartSet :=
  if hart < 64 then { shared with low := shared.low &&& ~~~BitVec.twoPow 64 hart }
  else if hart < hartLimit then
    { shared with high := shared.high &&& ~~~BitVec.twoPow 64 (hart - 64) }
  else shared

theorem load_ofSet (s : HartSet) : (ofSet s).load = s := rfl

/-!
# Words of harts

A hart below 64 has its bit at its own place in the first word; any other hart below the limit
has it 64 places lower in the second one.
-/

theorem wordOf_of_lt {hart : Nat} (h : hart < 64) :
    HartSet.wordOf hart = 0 ∧ HartSet.placeOf hart = hart := by
  unfold HartSet.wordOf HartSet.placeOf
  omega

theorem wordOf_of_le {hart : Nat} (h : 64 ≤ hart) (hlimit : hart < hartLimit) :
    HartSet.wordOf hart = 1 ∧ HartSet.placeOf hart = hart - 64 := by
  unfold hartLimit at hlimit
  unfold HartSet.wordOf HartSet.placeOf
  omega

theorem lt_hartLimit_of_lt {hart : Nat} (h : hart < 64) : hart < hartLimit := by
  unfold hartLimit
  omega

theorem contains_load (shared : SharedHartSet) (hart : Nat) :
    shared.load.contains hart = shared.contains hart := by
  unfold HartSet.contains contains
  by_cases h : hart < 64
  · rw [(wordOf_of_lt h).1, (wordOf_of_lt h).2, decide_eq_true (lt_hartLimit_of_lt h), if_pos h]
    rfl
  · by_cases hlimit : hart < hartLimit
    · rcases wordOf_of_le (Nat.le_of_not_lt h) hlimit with ⟨hword, hplace⟩
      rw [hword, hplace, decide_eq_true hlimit, if_neg h]
      rfl
    · have hbeyond : 64 ≤ hart - 64 := by
        unfold hartLimit at hlimit
        omega
      rw [decide_eq_false hlimit, if_neg h, BitVec.getLsbD_of_ge _ _ hbeyond]
      rfl

theorem load_insert (shared : SharedHartSet) (added : Nat) :
    (shared.insert added).load = shared.load.insert added := by
  unfold insert HartSet.insert
  by_cases h : added < 64
  · rw [if_pos h, if_pos (lt_hartLimit_of_lt h), (wordOf_of_lt h).1, (wordOf_of_lt h).2]
    rfl
  · rw [if_neg h]
    by_cases hlimit : added < hartLimit
    · rcases wordOf_of_le (Nat.le_of_not_lt h) hlimit with ⟨hword, hplace⟩
      rw [if_pos hlimit, if_pos hlimit, hword, hplace]
      rfl
    · rw [if_neg hlimit, if_neg hlimit]

theorem load_erase (shared : SharedHartSet) (gone : Nat) :
    (shared.erase gone).load = shared.load.erase gone := by
  unfold erase HartSet.erase
  by_cases h : gone < 64
  · rw [if_pos h, if_pos (lt_hartLimit_of_lt h), (wordOf_of_lt h).1, (wordOf_of_lt h).2]
    rfl
  · rw [if_neg h]
    by_cases hlimit : gone < hartLimit
    · rcases wordOf_of_le (Nat.le_of_not_lt h) hlimit with ⟨hword, hplace⟩
      rw [if_pos hlimit, if_pos hlimit, hword, hplace]
      rfl
    · rw [if_neg hlimit, if_neg hlimit]

end SharedHartSet
end Interhart
