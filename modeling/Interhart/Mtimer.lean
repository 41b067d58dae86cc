import Interhart.DieWindow
import Interhart.HartTable
import Interhart.Log

/-!
# Timer devices

An MTIMER has a counter of 64 bits and, for each hart it serves, a compare register of
64 bits.  The timer interrupt of a hart is pending while the counter is not below the
compare register, so all ones in it switch the interrupt off.

A device may follow a reference whose counter started at another time.  It is aligned
with the reference once, by the difference between a reading of the reference and the
mean of two own readings around it.
-/

namespace Interhart
namespace Mtimer

def alignment : UInt64 := 8

def pieceLimit : Nat := 0x1000

def disarmed : UInt64 := 0xffffffffffffffff

/-- What the low half of a counter holds while the halves are written: no time at all. -/
def parkedTime : UInt32 := 0

/-- What the low half of a compare register holds while the halves are written: no
time that comes soon. -/
def parkedCompare : UInt32 := 0xffffffff

structure Config where
  timeBase : UInt64
  timeSize : UInt64
  compareBase : UInt64
  compareSize : UInt64
  frequency : UInt64
  harts : HartRange
  supportsWhole : Bool
  /-- Whether other devices share the counter, so that it must never be moved. -/
  sharesTime : Bool
  windows : List DieWindow
deriving DecidableEq

namespace Config

def isValid (config : Config) : Bool :=
  decide (config.timeSize ≠ 0 ∧ (config.harts.count ≠ 0 → config.compareSize ≠ 0)) &&
    decide (config.timeBase % alignment = 0 ∧ config.timeSize % alignment = 0) &&
    decide (config.compareBase % alignment = 0 ∧ config.compareSize % alignment = 0) &&
    decide (config.harts.count * 8 ≤ config.compareSize.toNat) && config.harts.isServable &&
    DieWindow.areValid config.harts.first config.harts.stop alignment config.windows

def validate (config : Config) : Except Error Unit :=
  if config.isValid then .ok () else .error .invalidArgument

def serves (config : Config) (hart : Nat) : Bool := config.harts.contains hart

def access (config : Config) : RegisterAccess := .select config.supportsWhole

def timeRegister (config : Config) (hart : Nat) : UInt64 :=
  (DieWindow.locate config.timeBase config.harts.first config.windows hart).1.address 0

def compareRegister? (config : Config) (hart : Nat) : Option UInt64 :=
  if config.serves hart then
    let (block, place) :=
      DieWindow.locate config.compareBase config.harts.first config.windows hart
    some (block.address (UInt64.ofNat (place * 8)))
  else none

/-!
# What is protected

The two register blocks of each copy are one range if they touch, and two otherwise.
-/

def copyRanges (config : Config) (offset : UInt64) : List (UInt64 × UInt64) :=
  let time := config.timeBase + offset
  let compare := config.compareBase + offset
  let total := config.timeSize + config.compareSize
  if time = compare + config.compareSize then [(compare, total)]
  else if compare = time + config.timeSize then [(time, total)]
  else [(time, config.timeSize), (compare, config.compareSize)]

def ranges (config : Config) : Except Fault (List (UInt64 × UInt64)) :=
  if config.timeSize.toNat + config.compareSize.toNat < UInt64.size then
    .ok ((0 :: config.windows.map (·.offset)).flatMap config.copyRanges)
  else .error .sumOverflow

/-!
# Registers
-/

section Operations

variable {m : Type → Type} [Monad m] [MonadExceptOf Exit m]

def time [ReadsRegisters m] (config : Config) (hart : Nat) : m UInt64 :=
  config.access.read (config.timeRegister hart)

def setTime [WritesRegisters m] (config : Config) (hart : Nat) (value : UInt64) : m Unit :=
  config.access.write parkedTime (config.timeRegister hart) value

def compare [ReadsRegisters m] (config : Config) (hart : Nat) : m (Option UInt64) := do
  match config.compareRegister? hart with
  | some address => return some (← config.access.read address)
  | none => return none

def arm [WritesRegisters m] (config : Config) (hart : Nat) (deadline : UInt64) : m Unit :=
  match config.compareRegister? hart with
  | some address => config.access.write parkedCompare address deadline
  | none => pure ()

def disarm [WritesRegisters m] (config : Config) (hart : Nat) : m Unit :=
  config.arm hart disarmed

def isPending [ReadsRegisters m] (config : Config) (hart : Nat) : m (Option Bool) := do
  match ← config.compare hart with
  | some deadline => return some (decide (deadline ≤ (← config.time hart)))
  | none => return none

/-- The difference between a reading of the reference and the mean of the own readings
before and after it. -/
def difference (before reference after : UInt64) : UInt64 :=
  reference - (before / 2 + after / 2)

def align [ReadsRegisters m] [WritesRegisters m] (config reference : Config) (hart : Nat) :
    m UInt64 := do
  let before ← config.time hart
  let there ← reference.time hart
  let after ← config.time hart
  let delta := difference before there after
  config.setTime hart ((← config.time hart) + delta)
  return delta

end Operations

/-!
# Log records
-/

def boundRecord (config : Config) : LogRecord :=
  { level := .info
    message := s!"MTIMER at {hexadecimal config.timeBase.toNat}: harts {config.harts.text}, " ++
      s!"{config.frequency} Hz, {config.access.name}" }

def selfReferenceRecord (config : Config) : LogRecord :=
  { level := .warn
    message := s!"MTIMER at {hexadecimal config.timeBase.toNat} cannot be its own reference" }

def alignedRecord (config : Config) (delta : UInt64) : LogRecord :=
  { level := .debug
    message := s!"MTIMER at {hexadecimal config.timeBase.toNat}: synced with a delta of " ++
      hexadecimal delta.toNat }

end Config

/-- A device with its alignment: the device it follows, whether it has been aligned, and the
amount by which its counter was moved. -/
structure Device where
  config : Config
  reference : Option Nat := none
  aligned : Bool := false
  delta : Option UInt64 := none
deriving DecidableEq

structure Driver where
  devices : HartTable Nat := .empty
  frequency : UInt64 := 0

instance : Inhabited Driver := ⟨{}⟩

namespace Driver

def name : String := "aclint-mtimer"

def text (driver : Driver) : String :=
  s!"Mtimer \x7b harts: {driver.devices.harts.text}, frequency: {driver.frequency} \x7d"

end Driver
end Mtimer
end Interhart
