import Interhart.Ipi.Event
import Interhart.Log

/-!
# Traces

What a machine does towards its surroundings, entry by entry: register accesses, effects
on harts, the calls on scripted devices, and log records that are kept.
-/

namespace Interhart

inductive Entry
  | read32 (address : UInt64) (value : UInt32)
  | read64 (address value : UInt64)
  | write32 (address : UInt64) (value : UInt32)
  | write64 (address value : UInt64)
  | performed (hart : Nat) (event : Ipi.Event)
  | returned (answer : Except Error Unit)
  | raised (device : Nat) (hart : Nat)
  | cleared (device : Nat) (hart : Nat)
  | started (clock : Nat) (hart : Nat) (deadline : UInt64)
  | stopped (clock : Nat) (hart : Nat)
  | logged (record : LogRecord)

namespace Entry

def effectName : Ipi.Event → String
  | .soft => "ssoft"
  | .fenceI => "fence_i"
  | .sfenceVma => "sfence_vma"
  | .halt => "park"

def answerText : Except Error Unit → String
  | .ok () => "Ok(())"
  | .error .invalidArgument => "Err(InvalidArgs)"
  | .error .noDevice => "Err(NoDevice)"
  | .error .tableFull => "Err(NotEnoughResources)"

def text : Entry → String
  | read32 address value => s!"R32 {hexadecimal address.toNat} {hexadecimal value.toNat}"
  | read64 address value => s!"R64 {hexadecimal address.toNat} {hexadecimal value.toNat}"
  | write32 address value => s!"W32 {hexadecimal address.toNat} {hexadecimal value.toNat}"
  | write64 address value => s!"W64 {hexadecimal address.toNat} {hexadecimal value.toNat}"
  | performed hart event => s!"hart{hart} {effectName event}"
  | returned answer => s!"reaction {answerText answer}"
  | raised device hart => s!"fake{device} raise {hart}"
  | cleared device hart => s!"fake{device} clear {hart}"
  | started clock hart deadline =>
      s!"clock{clock} event_start {hart} {hexadecimal deadline.toNat}"
  | stopped clock hart => s!"clock{clock} event_stop {hart}"
  | logged record => s!"log {record.level.name}: {record.message}"

end Entry
end Interhart
