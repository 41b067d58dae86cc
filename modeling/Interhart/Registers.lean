import Interhart.Outcome
import Interhart.Text.Numeral

/-!
# Device registers

Registers are 32 or 64 bits wide and lie at addresses of 64 bits, which wrap around.
An access that is not aligned to its own width is a fault, and nothing reaches the bus.
A register of 64 bits is accessed whole or as two halves, the low half first in memory.

The code that drives devices is written against the classes below, so that it runs
alike on a bare bus and on a bus whose writes interrupt other harts.
-/

namespace Interhart

class ReadsRegisters (m : Type → Type) where
  read32 : UInt64 → m UInt32
  read64 : UInt64 → m UInt64

class WritesRegisters (m : Type → Type) where
  write32 : UInt64 → UInt32 → m Unit
  write64 : UInt64 → UInt64 → m Unit

section Checked

variable {m : Type → Type} [Monad m] [MonadExceptOf Exit m]

def load32 [ReadsRegisters m] (address : UInt64) : m UInt32 :=
  if address % 4 = 0 then ReadsRegisters.read32 address else throw (.fault .misalignedAccess)

def load64 [ReadsRegisters m] (address : UInt64) : m UInt64 :=
  if address % 8 = 0 then ReadsRegisters.read64 address else throw (.fault .misalignedAccess)

def store32 [WritesRegisters m] (address : UInt64) (value : UInt32) : m Unit :=
  if address % 4 = 0 then WritesRegisters.write32 address value
  else throw (.fault .misalignedAccess)

def store64 [WritesRegisters m] (address value : UInt64) : m Unit :=
  if address % 8 = 0 then WritesRegisters.write64 address value
  else throw (.fault .misalignedAccess)

end Checked

/-!
# Halves of a register
-/

def lowHalf (value : UInt64) : UInt32 := value.toUInt32

def highHalf (value : UInt64) : UInt32 := (value >>> 32).toUInt32

def joinHalves (high low : UInt32) : UInt64 := (high.toUInt64 <<< 32) ||| low.toUInt64

theorem toNat_joinHalves (high low : UInt32) :
    (joinHalves high low).toNat = UInt32.size * high.toNat + low.toNat := by
  have hh := high.toNat_lt
  have hl := low.toNat_lt
  simp only [joinHalves, UInt64.toNat_or, UInt64.toNat_shiftLeft, UInt32.toNat_toUInt64]
  rw [show (32 : UInt64).toNat % 64 = 32 from rfl, Nat.shiftLeft_eq,
    Nat.mod_eq_of_lt (by omega), Nat.mul_comm, ← Nat.two_pow_add_eq_or_of_lt hl]

@[simp] theorem lowHalf_joinHalves (high low : UInt32) :
    lowHalf (joinHalves high low) = low := by
  apply UInt32.toNat_inj.mp
  have hl := low.toNat_lt
  simp only [lowHalf, UInt64.toNat_toUInt32, toNat_joinHalves, UInt32.size]
  omega

@[simp] theorem highHalf_joinHalves (high low : UInt32) :
    highHalf (joinHalves high low) = high := by
  apply UInt32.toNat_inj.mp
  have hh := high.toNat_lt
  have hl := low.toNat_lt
  simp only [highHalf, UInt64.toNat_toUInt32, UInt64.toNat_shiftRight, toNat_joinHalves,
    UInt32.size]
  rw [show (32 : UInt64).toNat % 64 = 32 from rfl, Nat.shiftRight_eq_div_pow]
  omega

@[simp] theorem joinHalves_halves (value : UInt64) :
    joinHalves (highHalf value) (lowHalf value) = value := by
  apply UInt64.toNat_inj.mp
  have hv := value.toNat_lt
  simp only [toNat_joinHalves, UInt32.size, highHalf, lowHalf, UInt64.toNat_toUInt32,
    UInt64.toNat_shiftRight]
  rw [show (32 : UInt64).toNat % 64 = 32 from rfl, Nat.shiftRight_eq_div_pow]
  omega

/-- Reads a register as two halves.  The high half is read again after the low one, and all
is read anew if it has changed, so a carry between the reads goes unseen. -/
def readHalves {m : Type → Type} [Monad m] [MonadExceptOf Exit m]
    (readHigh readLow : m UInt32) : m UInt64 :=
  poll (do
    let high ← readHigh
    let low ← readLow
    let again ← readHigh
    pure (if high = again then some (joinHalves high low) else none)) patience

/-- Writes a register as two halves.  The low half is parked at a harmless value
while the halves disagree. -/
def writeHalves {m : Type → Type} [Monad m] (parked : UInt32) (value : UInt64)
    (writeHigh writeLow : UInt32 → m Unit) : m Unit := do
  writeLow parked
  writeHigh (highHalf value)
  writeLow (lowHalf value)

inductive RegisterAccess
  | whole
  | halves
deriving DecidableEq

namespace RegisterAccess

def select (supportsWhole : Bool) : RegisterAccess := if supportsWhole then whole else halves

def name : RegisterAccess → String
  | whole => "Mmio64"
  | halves => "Mmio32"

variable {m : Type → Type} [Monad m] [MonadExceptOf Exit m]

def read [ReadsRegisters m] (access : RegisterAccess) (address : UInt64) : m UInt64 :=
  match access with
  | whole => load64 address
  | halves => readHalves (load32 (address + 4)) (load32 address)

def write [WritesRegisters m] (access : RegisterAccess) (parked : UInt32)
    (address value : UInt64) : m Unit :=
  match access with
  | whole => store64 address value
  | halves => writeHalves parked value (store32 (address + 4)) (store32 address)

end RegisterAccess

structure RegisterBlock where
  base : UInt64
deriving DecidableEq

namespace RegisterBlock

def address (block : RegisterBlock) (offset : UInt64) : UInt64 := block.base + offset

def shift (block : RegisterBlock) (offset : UInt64) : RegisterBlock := ⟨block.base + offset⟩

end RegisterBlock
end Interhart
