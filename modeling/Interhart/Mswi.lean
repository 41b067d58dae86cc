import Interhart.DieWindow
import Interhart.HartTable
import Interhart.Log

/-!
# Software-interrupt devices

An MSWI holds one register of 32 bits for each hart it serves.  Writing one makes a
software interrupt pending on the hart, writing zero clears it.
-/

namespace Interhart
namespace Mswi

/-- The alignment of register blocks, and the largest piece in which they are protected. -/
def alignment : UInt64 := 0x1000

structure Config where
  base : UInt64
  size : UInt64
  harts : HartRange
  windows : List DieWindow
deriving DecidableEq

namespace Config

def isValid (config : Config) : Bool :=
  decide (config.base % alignment = 0 ∧ config.size % alignment = 0 ∧ config.size ≠ 0) &&
    decide (config.harts.count * 4 ≤ config.size.toNat) && config.harts.isServable &&
    DieWindow.areValid config.harts.first config.harts.stop alignment config.windows

def validate (config : Config) : Except Error Unit :=
  if config.isValid then .ok () else .error .invalidArgument

def serves (config : Config) (hart : Nat) : Bool := config.harts.contains hart

def register? (config : Config) (hart : Nat) : Option UInt64 :=
  if config.serves hart then
    let (block, place) := DieWindow.locate config.base config.harts.first config.windows hart
    some (block.address (UInt64.ofNat (place * 4)))
  else none

def blocks (config : Config) : List (UInt64 × UInt64) :=
  (config.base :: config.windows.map fun window => config.base + window.offset).map
    fun base => (base, config.size)

section Operations

variable {m : Type → Type} [Monad m] [MonadExceptOf Exit m]

def write [WritesRegisters m] (config : Config) (hart : Nat) (value : UInt32) : m Unit :=
  match config.register? hart with
  | some address => store32 address value
  | none => pure ()

def raise [WritesRegisters m] (config : Config) (hart : Nat) : m Unit := config.write hart 1

def clear [WritesRegisters m] (config : Config) (hart : Nat) : m Unit := config.write hart 0

def isPending [ReadsRegisters m] (config : Config) (hart : Nat) : m (Option Bool) := do
  match config.register? hart with
  | some address => return some ((← load32 address) &&& 1 != 0)
  | none => return none

end Operations

def boundRecord (config : Config) : LogRecord :=
  { level := .info
    message := s!"MSWI at {hexadecimal config.base.toNat}: harts {config.harts.text}" }

end Config

structure Driver where
  devices : HartTable Nat := .empty

instance : Inhabited Driver := ⟨{}⟩

namespace Driver

def name : String := "aclint-mswi"

def text (driver : Driver) : String :=
  s!"Mswi \x7b harts: {driver.devices.harts.text} \x7d"

end Driver
end Mswi
end Interhart
