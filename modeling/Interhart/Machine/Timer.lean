import Interhart.Machine.Harts

/-!
# Time on a machine

Aligning timer devices with their references, and the timer that stands before whichever
timer device is registered.
-/

namespace Interhart
namespace Machine

open Bench

/-- Aligns a device with its reference, as a hart sees it.  This happens once, and only to a
device that has a counter of its own and a reference; the answer tells whether it happened. -/
def sync (number : Nat) (hart : Nat) : MachineM Bool := do
  let device ← Ipi.onOutside (mtimer number)
  match device.reference with
  | none => return false
  | some reference =>
      if device.config.sharesTime || device.aligned then return false
      Ipi.onOutside (setMtimer number fun d => { d with aligned := true })
      let followed ← Ipi.onOutside (mtimer reference)
      let delta ← device.config.align followed.config hart
      Ipi.onOutside do
        setMtimer number fun d => { d with delta := some (d.delta.getD delta) }
        log (device.config.alignedRecord delta)
      return true

def driverArm (driver : DriverId) (hart : Nat) (deadline : UInt64) : MachineM Unit := do
  match ← Ipi.onOutside (mtimerServing driver hart) with
  | some number => (← Ipi.onOutside (mtimer number)).config.arm hart deadline
  | none => return ()

def driverDisarm (driver : DriverId) (hart : Nat) : MachineM Unit := do
  driverArm driver hart Mtimer.disarmed

def driverBringUpTimer (driver : DriverId) (hart : Nat) : MachineM Unit := do
  match ← Ipi.onOutside (mtimerServing driver hart) with
  | some number =>
      discard (sync number hart)
      (← Ipi.onOutside (mtimer number)).config.disarm hart
  | none => throw (.refused .noDevice)

/-!
# The registered device
-/

def deviceName : TimerDevice → String
  | .mtimer _ => Mtimer.Driver.name
  | .clock number => s!"clock{number}"

def deviceStart : TimerDevice → Nat → UInt64 → MachineM Unit
  | .mtimer driver, hart, deadline => driverArm driver hart deadline
  | .clock number, hart, deadline => Ipi.onOutside (record (.started number hart deadline))

def deviceStop : TimerDevice → Nat → MachineM Unit
  | .mtimer driver, hart => driverDisarm driver hart
  | .clock number, hart => Ipi.onOutside (record (.stopped number hart))

def deviceBringUp : TimerDevice → Nat → MachineM Unit
  | .mtimer driver, hart => driverBringUpTimer driver hart
  | .clock number, hart => deviceStop (.clock number) hart

def requireTimer : MachineM TimerDevice := do
  match (← get).outside.timer with
  | some device => pure device
  | none => throw (.refused .noDevice)

def withTimer (action : TimerDevice → MachineM Unit) : MachineM Unit := do
  match (← get).outside.timer with
  | some device => action device
  | none => pure ()

def startTimer (hart : Nat) (deadline : UInt64) : MachineM Unit :=
  withTimer (deviceStart · hart deadline)

def stopTimer (hart : Nat) : MachineM Unit := withTimer (deviceStop · hart)

def bringUpTimer (hart : Nat) : MachineM Unit := do
  deviceBringUp (← requireTimer) hart

def delayTicks (hart : Nat) (ticks : UInt64) : MachineM Unit :=
  withTimer fun device => Ipi.onOutside (waitTicks (deviceTime device hart) ticks)

def delay (hart : Nat) (amount : UInt64) (unit : TimeUnit) : MachineM Unit := do
  let frequency ← Ipi.onOutside timerFrequency
  delayTicks hart (ticksOf frequency amount unit)

end Machine
end Interhart
