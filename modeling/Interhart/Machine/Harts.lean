import Interhart.Ipi.Dispatch
import Interhart.Machine.Drivers

/-!
# Harts at work

A machine is a dispatcher on its bench.  A write to the bus and a call on a scripted
controller may interrupt harts, as the script says; these harts process their slots
before the write or the call returns, and while they carry out events they may call the
dispatcher in their turn.
-/

namespace Interhart

abbrev Machine := Ipi.System Controller Bench

abbrev MachineM := Ipi.Run Controller Bench

namespace Bench

def write32 (address : UInt64) (value : UInt32) : BenchM (List Ipi.Call) := do
  modify fun b => { b with bus := b.bus.poke address value }
  record (.write32 address value)
  if value = 0 then return []
  return ((← get).script.atAddress address).map .process

def write64 (address value : UInt64) : BenchM (List Ipi.Call) := do
  modify fun b => { b with bus := b.bus.poke64 address value }
  record (.write64 address value)
  if value = 0 then return []
  return ((← get).script.atAddress address).map .process

/-- Steps that put off the calls of interrupted harts and collect them. -/
abbrev Collecting := StateT (List Ipi.Call) BenchM

instance : WritesRegisters Collecting where
  write32 address value := fun calls => do
    let more ← write32 address value
    return ((), calls ++ more)
  write64 address value := fun calls => do
    let more ← write64 address value
    return ((), calls ++ more)

def collect (step : Collecting Unit) : BenchM (List Ipi.Call) := do
  let (_, calls) ← step []
  return calls

/-!
# Controllers
-/

def driverRaise (driver : DriverId) (hart : Nat) : BenchM (List Ipi.Call) := do
  match ← mswiServing driver hart with
  | some number => collect ((← mswi number).raise hart)
  | none => return []

def driverClear (driver : DriverId) (hart : Nat) : BenchM Unit := do
  match ← mswiServing driver hart with
  | some number => discard (collect ((← mswi number).clear hart))
  | none => return ()

def driverRefusal (driver : DriverId) (hart : Nat) (b : Bench) : Option Error :=
  if (b.mswiDrivers driver).devices.contains hart then none else some .noDevice

def takeReaction (hart : Nat) (event : Ipi.Event) : BenchM (List Ipi.Call) := do
  let fires (reaction : Reaction) : Bool :=
    decide (reaction.hart = hart ∧ reaction.trigger = event)
  let script := (← get).script
  match script.reactions.find? fires with
  | some reaction =>
      modify fun b => { b with
        script := { b.script with reactions := script.reactions.eraseP fires } }
      return reaction.calls
  | none => return []

def environment : Ipi.Environment Controller Bench where
  name
    | .mswi _ => Mswi.Driver.name
    | .scripted number => s!"fake{number}"
  raise
    | .mswi driver, hart => driverRaise driver hart
    | .scripted number, hart => do
        record (.raised number hart)
        return ((← get).script.atHart hart).map .process
  clear
    | .mswi driver, hart => driverClear driver hart
    | .scripted number, hart => record (.cleared number hart)
  refusal
    | .mswi driver, hart, b => driverRefusal driver hart b
    | .scripted _, _, _ => none
  perform hart event := do
    record (.performed hart event)
    takeReaction hart event
  returned answer := record (.returned answer)
  log := log

/-- A hart whose effects nobody sees: the same surroundings without effects. -/
def quietEnvironment : Ipi.Environment Controller Bench :=
  { environment with perform := fun _ _ => return [] }

/-- A depth that nested calls cannot exceed.  The calls that a hart makes while it
carries out an event, and the processing that they cause, are two levels; each pending
reaction adds two more. -/
def depth (b : Bench) : Nat := 2 * b.script.reactions.length + 2

end Bench

namespace Machine

open Bench

def handle (calls : List Ipi.Call) : MachineM Unit := do
  Ipi.carryOut environment (← get).outside.depth calls

def interrupting (step : BenchM (List Ipi.Call)) : MachineM Unit := do
  handle (← Ipi.onOutside step)

instance : ReadsRegisters MachineM where
  read32 address := Ipi.onOutside (ReadsRegisters.read32 address)
  read64 address := Ipi.onOutside (ReadsRegisters.read64 address)

instance : WritesRegisters MachineM where
  write32 address value := interrupting (write32 address value)
  write64 address value := interrupting (write64 address value)

/-!
# The dispatcher of a machine
-/

def send (origin : Nat) (targets : Option HartSet) (event : Option Ipi.Event) : MachineM Unit :=
  Ipi.send environment handle origin targets event

def process (hart : Nat) : MachineM Unit := Ipi.process environment handle hart

/-- Processes the slot of a hart whose effects nobody sees.  Such a hart never
comes back from parking. -/
def processQuietly (hart : Nat) : MachineM Unit := do
  if (← Ipi.drain quietEnvironment handle hart) = .parked then throw .stuck

def bringUpIpi (hart : Nat) : MachineM Unit := Ipi.bringUp environment hart

def registerController (controller : Controller) : MachineM Unit :=
  Ipi.register environment controller

def driverRaise (driver : DriverId) (hart : Nat) : MachineM Unit :=
  interrupting (Bench.driverRaise driver hart)

def driverBringUp (driver : DriverId) (hart : Nat) : MachineM Unit := do
  match Bench.driverRefusal driver hart (← get).outside with
  | some error => throw (.refused error)
  | none => Ipi.onOutside (Bench.driverClear driver hart)

def bindMswi (driver : DriverId) (number : Nat) : MachineM Unit := do
  Ipi.onOutside (Bench.bindMswi driver number)
  registerController (.mswi driver)

end Machine
end Interhart
