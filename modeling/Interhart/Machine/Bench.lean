import Interhart.Bus
import Interhart.Delay
import Interhart.Domain
import Interhart.Ipi.System
import Interhart.Machine.Trace
import Interhart.Mswi
import Interhart.Mtimer

/-!
# The bench

The bench is everything around the dispatcher of a machine: the bus, the devices and
their drivers, the isolation domain, the timer, the log, and the script by which the
other harts act.  This module holds its state, reading registers and clocks, and the
log; none of these lets another hart run.
-/

namespace Interhart

/-- The two drivers of each kind: the board's own and a spare one. -/
abbrev DriverId := Fin 2

inductive Controller
  | mswi (driver : DriverId)
  /-- A scripted controller that only tells what it is asked to do. -/
  | scripted (number : Nat)
deriving DecidableEq

inductive TimerDevice
  | mtimer (driver : DriverId)
  | clock (number : Nat)
deriving DecidableEq

structure Clock where
  frequency : UInt64
  now : UInt64
  step : UInt64
  reads : Nat := 0
deriving DecidableEq

structure Reaction where
  hart : Nat
  trigger : Ipi.Event
  calls : List Ipi.Call
deriving DecidableEq

/-- How the other harts act: which of them process their slots when a value other than zero is
written to an address, or when a scripted controller interrupts a hart, and what they do while
they carry out events.  Each reaction happens once. -/
structure Script where
  atAddress : UInt64 → List Nat := fun _ => []
  atHart : Nat → List Nat := fun _ => []
  reactions : List Reaction := []

inductive Logger
  | traced (limit : LogLimit)
  /-- To the console, once it has been installed with a limit. -/
  | console (installed : Option LogLimit)
deriving DecidableEq

structure Board where
  name : String := ""
  timeReference : Option Nat := none
deriving DecidableEq

structure Bench where
  board : Board := {}
  bus : Bus := {}
  mswis : List Mswi.Config := []
  mtimers : List Mtimer.Device := []
  clocks : List Clock := []
  mswiDrivers : DriverId → Mswi.Driver := fun _ => {}
  mtimerDrivers : DriverId → Mtimer.Driver := fun _ => {}
  domain : Domain := {}
  timer : Option TimerDevice := none
  script : Script := {}
  logger : Logger := .traced none
  /-- The trace of the present step, the latest entry first. -/
  trace : List Entry := []
  output : String := ""

instance : Inhabited Bench := ⟨{}⟩

abbrev BenchM := EStateM Exit Bench

def callingHart : Nat := 0

namespace Bench

def record (entry : Entry) : BenchM Unit :=
  modify fun b => { b with trace := entry :: b.trace }

def orFault {α : Type} : Except Fault α → BenchM α
  | .ok value => pure value
  | .error fault => throw (.fault fault)

/-!
# Devices by number
-/

def mswi (number : Nat) : BenchM Mswi.Config := do
  match (← get).mswis[number]? with
  | some config => pure config
  | none => throw (.refused .noDevice)

def mtimer (number : Nat) : BenchM Mtimer.Device := do
  match (← get).mtimers[number]? with
  | some device => pure device
  | none => throw (.refused .noDevice)

def setMtimer (number : Nat) (change : Mtimer.Device → Mtimer.Device) : BenchM Unit :=
  modify fun b => { b with mtimers := b.mtimers.modify number change }

def setMswiDriver (driver : DriverId) (change : Mswi.Driver → Mswi.Driver) : BenchM Unit :=
  modify fun b => { b with
    mswiDrivers := fun d => if d = driver then change (b.mswiDrivers d) else b.mswiDrivers d }

def setMtimerDriver (driver : DriverId) (change : Mtimer.Driver → Mtimer.Driver) :
    BenchM Unit :=
  modify fun b => { b with
    mtimerDrivers := fun d =>
      if d = driver then change (b.mtimerDrivers d) else b.mtimerDrivers d }

def mswiServing (driver : DriverId) (hart : Nat) : BenchM (Option Nat) := do
  return ((← get).mswiDrivers driver).devices.get? hart

def mtimerServing (driver : DriverId) (hart : Nat) : BenchM (Option Nat) := do
  return ((← get).mtimerDrivers driver).devices.get? hart

/-!
# Reading registers and clocks
-/

instance : ReadsRegisters BenchM where
  read32 address := do
    let value := (← get).bus.peek address
    modify fun b => { b with bus := b.bus.tick address }
    record (.read32 address value)
    return value
  read64 address := do
    let value := (← get).bus.peek64 address
    modify fun b => { b with bus := b.bus.tick address }
    record (.read64 address value)
    return value

/-- Reads a scripted clock; one that is not there shows zero. -/
def readClock (number : Nat) : BenchM UInt64 := do
  let value := ((← get).clocks[number]?.map (·.now)).getD 0
  modify fun b => { b with
    clocks := b.clocks.modify number fun c =>
      { c with now := c.now + c.step, reads := c.reads + 1 } }
  return value

def driverTime (driver : DriverId) (hart : Nat) : BenchM UInt64 := do
  match ← mtimerServing driver hart with
  | some number => (← mtimer number).config.time hart
  | none => return 0

def deviceTime : TimerDevice → Nat → BenchM UInt64
  | .mtimer driver, hart => driverTime driver hart
  | .clock number, _ => readClock number

def deviceFrequency (b : Bench) : TimerDevice → UInt64
  | .mtimer driver => (b.mtimerDrivers driver).frequency
  | .clock number => (b.clocks[number]?.map (·.frequency)).getD 0

def timerValue (hart : Nat) : BenchM UInt64 := do
  match (← get).timer with
  | some device => deviceTime device hart
  | none => return 0

def timerFrequency : BenchM UInt64 := do
  let b ← get
  return (b.timer.map b.deviceFrequency).getD 0

/-!
# The log
-/

/-- Keeps a record where the logger puts it.  A line on the console shows the time of the
calling hart, which is read for it. -/
def log (entry : LogRecord) : BenchM Unit := do
  match (← get).logger with
  | .traced limit => if limit.admits entry.level then record (.logged entry)
  | .console none => pure ()
  | .console (some limit) =>
      if limit.admits entry.level then
        let ticks ← timerValue callingHart
        let frequency ← timerFrequency
        let (seconds, millis) ← orFault (timestamp ticks frequency)
        modify fun b => { b with output := b.output ++ entry.line seconds millis callingHart }

def installConsole (limit : LogLimit) : BenchM Unit :=
  modify fun b =>
    match b.logger with
    | .console none => { b with logger := .console (some limit) }
    | _ => b

end Bench
end Interhart
