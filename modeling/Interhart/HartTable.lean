import Interhart.HartRange
import Interhart.HartSet
import Interhart.Outcome

/-!
# Tables of harts

A table binds harts to entries.  Entries are bound by whole ranges of harts, and only
where every hart of the range is below the limit and still free, so a bound hart keeps
its entry for good.
-/

namespace Interhart

structure HartTable (α : Type) where
  get? : Nat → Option α

namespace HartTable

variable {α : Type}

def empty : HartTable α := ⟨fun _ => none⟩

instance : Inhabited (HartTable α) := ⟨empty⟩

def contains (table : HartTable α) (hart : Nat) : Bool := (table.get? hart).isSome

def isVacant (table : HartTable α) (range : HartRange) : Bool :=
  decide (range.stop ≤ hartLimit) && range.toList.all (!table.contains ·)

def assign (table : HartTable α) (range : HartRange) (entry : α) : HartTable α :=
  ⟨fun hart => if range.contains hart then some entry else table.get? hart⟩

/-- Binds a range of harts to an entry, all of them or none. -/
def bindRange (table : HartTable α) (range : HartRange) (entry : α) :
    Except Error (HartTable α) :=
  if table.isVacant range then .ok (table.assign range entry) else .error .invalidArgument

def harts (table : HartTable α) : HartSet :=
  HartSet.ofList ((List.range hartLimit).filter table.contains)

@[simp] theorem get?_empty (hart : Nat) : (empty : HartTable α).get? hart = none := rfl

theorem get?_assign (table : HartTable α) (range : HartRange) (entry : α) (hart : Nat) :
    (table.assign range entry).get? hart =
      if range.contains hart then some entry else table.get? hart := rfl

theorem isVacant_iff {table : HartTable α} {range : HartRange} :
    table.isVacant range = true ↔
      range.stop ≤ hartLimit ∧
        ∀ hart, range.contains hart = true → table.get? hart = none := by
  simp only [isVacant, Bool.and_eq_true, decide_eq_true_eq, List.all_eq_true,
    HartRange.mem_toList, Bool.not_eq_true', contains, Option.isSome_eq_false_iff,
    Option.isNone_iff_eq_none]

theorem get?_assign_of_vacant {table : HartTable α} {range : HartRange} {hart : Nat}
    {bound : α} (hvacant : table.isVacant range = true) (hbound : table.get? hart = some bound)
    (entry : α) : (table.assign range entry).get? hart = some bound := by
  rw [get?_assign]
  split
  · rw [(isVacant_iff.mp hvacant).2 hart ‹_›] at hbound
    cases hbound
  · exact hbound

theorem bindRange_eq_ok_iff {table bound : HartTable α} {range : HartRange} {entry : α} :
    table.bindRange range entry = .ok bound ↔
      table.isVacant range = true ∧ bound = table.assign range entry := by
  unfold bindRange
  by_cases h : table.isVacant range = true
  · simp [h, eq_comm]
  · simp [h]

end HartTable
end Interhart
