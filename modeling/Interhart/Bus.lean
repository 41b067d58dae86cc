import Interhart.Registers

/-!
# The bus

Memory consists of little-endian words of 32 bits, named by their addresses.  A counter
occupies eight bytes of it, the low half first; every read that starts in a counter
returns its present value and then advances it by its step.  Writes replace halves and
advance nothing.
-/

namespace Interhart

/-- A register of 64 bits that advances when it is read. -/
structure Counter where
  address : UInt64
  value : UInt64
  step : UInt64
deriving DecidableEq

namespace Counter

def half? (counter : Counter) (address : UInt64) : Option UInt32 :=
  if address = counter.address then some (lowHalf counter.value)
  else if address = counter.address + 4 then some (highHalf counter.value)
  else none

def setHalf (counter : Counter) (address : UInt64) (half : UInt32) : Counter :=
  if address = counter.address then
    { counter with value := joinHalves (highHalf counter.value) half }
  else if address = counter.address + 4 then
    { counter with value := joinHalves half (lowHalf counter.value) }
  else counter

/-- The counter after a read that started at an address. -/
def tick (counter : Counter) (address : UInt64) : Counter :=
  if (counter.half? address).isSome then { counter with value := counter.value + counter.step }
  else counter

end Counter

structure Bus where
  memory : UInt64 → UInt32 := fun _ => 0
  counters : List Counter := []

namespace Bus

def peek (bus : Bus) (address : UInt64) : UInt32 :=
  (bus.counters.findSome? (·.half? address)).getD (bus.memory address)

def peek64 (bus : Bus) (address : UInt64) : UInt64 :=
  joinHalves (bus.peek (address + 4)) (bus.peek address)

def poke (bus : Bus) (address : UInt64) (word : UInt32) : Bus :=
  if bus.counters.any fun counter => (counter.half? address).isSome then
    { bus with counters := bus.counters.map (·.setHalf address word) }
  else { bus with memory := fun a => if a = address then word else bus.memory a }

def poke64 (bus : Bus) (address value : UInt64) : Bus :=
  (bus.poke address (lowHalf value)).poke (address + 4) (highHalf value)

def HasCounter (bus : Bus) (address : UInt64) : Prop :=
  ∃ counter ∈ bus.counters, counter.half? address ≠ none

def tick (bus : Bus) (address : UInt64) : Bus :=
  { bus with counters := bus.counters.map (·.tick address) }

theorem peek_of_no_counter {bus : Bus} {address : UInt64} (h : ¬bus.HasCounter address) :
    bus.peek address = bus.memory address := by
  have hnone : bus.counters.findSome? (·.half? address) = none := by
    rw [List.findSome?_eq_none_iff]
    intro counter hmem
    cases hhalf : counter.half? address with
    | none => rfl
    | some half => exact absurd ⟨counter, hmem, by rw [hhalf]; exact Option.some_ne_none half⟩ h
  rw [peek, hnone, Option.getD_none]

theorem poke_of_no_counter {bus : Bus} {address : UInt64} (word : UInt32)
    (h : ¬bus.HasCounter address) :
    bus.poke address word =
      { bus with memory := fun a => if a = address then word else bus.memory a } := by
  unfold poke
  rw [if_neg]
  intro hany
  rw [List.any_eq_true] at hany
  rcases hany with ⟨counter, hmem, hsome⟩
  exact h ⟨counter, hmem, Option.isSome_iff_ne_none.mp hsome⟩

theorem tick_of_no_counter {bus : Bus} {address : UInt64} (h : ¬bus.HasCounter address) :
    bus.tick address = bus := by
  have hsame : ∀ counter ∈ bus.counters, counter.tick address = id counter := by
    intro counter hmem
    unfold Counter.tick
    rw [if_neg]
    · rfl
    · intro hsome
      exact h ⟨counter, hmem, Option.isSome_iff_ne_none.mp hsome⟩
  rw [tick, List.map_congr_left hsame, List.map_id]

instance : ReadsRegisters (EStateM Exit Bus) where
  read32 address := fun bus => .ok (bus.peek address) (bus.tick address)
  read64 address := fun bus => .ok (bus.peek64 address) (bus.tick address)

instance : WritesRegisters (EStateM Exit Bus) where
  write32 address word := modify (·.poke address word)
  write64 address value := modify (·.poke64 address value)

end Bus
end Interhart
