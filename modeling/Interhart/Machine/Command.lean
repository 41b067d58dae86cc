import Interhart.Machine.Board

/-!
# Commands

Everything that can be asked of a machine, one command for each request.  A command ends
with an answer or leaves early; either way what it did stays done, and the report of the
step tells what happened meanwhile.
-/

namespace Interhart

inductive BenchCommand
  | poke (address : UInt64) (word : UInt32)
  | poke64 (address value : UInt64)
  | peek (address : UInt64)
  | read32 (address : UInt64)
  | read64 (address : UInt64)
  | write32 (address : UInt64) (value : UInt32)
  | write64 (address value : UInt64)
  | trapAtAddress (address : UInt64) (harts : List Nat)
  | trapAtHart (hart : Nat) (harts : List Nat)
  | react (reaction : Reaction)
  | showClock (number : Nat)

inductive DomainCommand
  | record (region : Region)
  | protect (base size largest : UInt64)
  | find (address : UInt64)
  | isProtected (address : UInt64)
  | size

inductive MswiCommand
  | raise (hart : Nat)
  | clear (hart : Nat)
  | isPending (hart : Nat)
  | validate

inductive MswiDriverCommand
  | bind (number : Nat)
  | serving (hart : Nat)
  | raise (hart : Nat)
  | clear (hart : Nat)
  | bringUp (hart : Nat)
  | describe

inductive MtimerCommand
  | access
  | validate
  | setReference (reference : Nat)
  | reference
  | time (hart : Nat)
  | compare (hart : Nat)
  | arm (hart : Nat) (deadline : UInt64)
  | disarm (hart : Nat)
  | isPending (hart : Nat)
  | sync (hart : Nat)
  | delta

inductive MtimerDriverCommand
  | bind (number : Nat) (reference : Option Nat)
  | serving (hart : Nat)
  | bringUp (hart : Nat)
  | frequency
  | time (hart : Nat)
  | arm (hart : Nat) (deadline : UInt64)
  | disarm (hart : Nat)
  | describe

inductive IpiCommand
  | register (controller : Controller)
  | controller
  | require
  | bringUp (hart : Nat)
  | makeAvailable (hart : Nat)
  | makeUnavailable (hart : Nat)
  | available
  | send (origin : Nat) (targets : Option HartSet) (event : Option Ipi.Event)
  | process (hart : Nat)
  | processQuietly (hart : Nat)
  /-- Clears the supervisor interrupt of the calling hart, which has none to see. -/
  | clearSupervisor
  | describe

inductive TimerCommand
  | register (device : TimerDevice)
  | device
  | require
  | bringUp (hart : Nat)
  | frequency
  | time (hart : Nat)
  | start (hart : Nat) (deadline : UInt64)
  | stop (hart : Nat)
  | delayTicks (hart : Nat) (ticks : UInt64)
  | delay (hart : Nat) (amount : UInt64) (unit : TimeUnit)
  | describe

inductive BoardCommand
  | earlyInit (commandLine : String)
  | bootIpi (hart : Nat) (cold : Bool)
  | bootTimer (hart : Nat) (cold : Bool)
  | installConsole (limit : LogLimit)
  | log (entry : LogRecord)

inductive Command
  | bench (command : BenchCommand)
  | domain (command : DomainCommand)
  | mswi (number : Nat) (command : MswiCommand)
  | mswiDriver (driver : DriverId) (command : MswiDriverCommand)
  | mtimer (number : Nat) (command : MtimerCommand)
  | mtimerDriver (driver : DriverId) (command : MtimerDriverCommand)
  | ipi (command : IpiCommand)
  | timer (command : TimerCommand)
  | board (command : BoardCommand)

inductive Answer
  | done
  | flag (value : Bool)
  | flag? (value : Option Bool)
  | word (value : UInt64)
  | word? (value : Option UInt64)
  | number? (value : Option Nat)
  | size (value : Nat)
  | name? (value : Option String)
  | text (value : String)
  | harts (value : HartSet)
  | region? (value : Option Region)
  | clock (now : UInt64) (reads : Nat)

namespace Machine

open Bench

def silently (operation : MachineM Unit) : MachineM Answer := do
  operation
  return .done

def changeBench (change : Bench → Bench) : MachineM Answer :=
  silently (Ipi.onOutside (modify change))

def optionText : Option String → String
  | some name => s!"Some(\"{name}\")"
  | none => "None"

def controllerName? (m : Machine) : Option String :=
  m.dispatcher.controller.map environment.name

def timerName? (m : Machine) : Option String := m.outside.timer.map deviceName

def ipiText (m : Machine) : String :=
  s!"Ipi \x7b device: {optionText (controllerName? m)}, " ++
    s!"available: {m.dispatcher.available.text}, .. \x7d"

def timerText (m : Machine) : String :=
  s!"Timer \x7b device: {optionText (timerName? m)} \x7d"

def runBench : BenchCommand → MachineM Answer
  | .poke address word => changeBench fun b => { b with bus := b.bus.poke address word }
  | .poke64 address value => changeBench fun b => { b with bus := b.bus.poke64 address value }
  | .peek address => do return .word ((← get).outside.bus.peek address).toUInt64
  | .read32 address => do return .word (← (load32 address : MachineM UInt32)).toUInt64
  | .read64 address => do return .word (← (load64 address : MachineM UInt64))
  | .write32 address value => silently (store32 address value)
  | .write64 address value => silently (store64 address value)
  | .trapAtAddress address harts => changeBench fun b =>
      { b with script := { b.script with
          atAddress := fun a => if a = address then harts else b.script.atAddress a } }
  | .trapAtHart hart harts => changeBench fun b =>
      { b with script := { b.script with
          atHart := fun h => if h = hart then harts else b.script.atHart h } }
  | .react reaction => changeBench fun b =>
      { b with script := { b.script with reactions := b.script.reactions ++ [reaction] } }
  | .showClock number => do
      match (← get).outside.clocks[number]? with
      | some clock => return .clock clock.now clock.reads
      | none => throw (.refused .noDevice)

def runDomain : DomainCommand → MachineM Answer
  | .record region => silently (Ipi.onOutside (recordRegion region))
  | .protect base size largest =>
      silently (Ipi.onOutside (protectRange base size largest.toNat))
  | .find address => do return .region? ((← get).outside.domain.find? address.toNat)
  | .isProtected address => do return .flag ((← get).outside.domain.isProtected address.toNat)
  | .size => do return .size (← get).outside.domain.regions.length

def runMswi (number : Nat) (command : MswiCommand) : MachineM Answer := do
  let config ← Ipi.onOutside (mswi number)
  match command with
  | .raise hart => silently (config.raise hart)
  | .clear hart => silently (config.clear hart)
  | .isPending hart => return .flag? (← config.isPending hart)
  | .validate => silently (Ipi.onOutside (orRefuse config.validate))

def runMswiDriver (driver : DriverId) : MswiDriverCommand → MachineM Answer
  | .bind number => silently (bindMswi driver number)
  | .serving hart => do return .number? (← Ipi.onOutside (mswiServing driver hart))
  | .raise hart => silently (driverRaise driver hart)
  | .clear hart => silently (Ipi.onOutside (driverClear driver hart))
  | .bringUp hart => silently (driverBringUp driver hart)
  | .describe => do return .text ((← get).outside.mswiDrivers driver).text

def runMtimer (number : Nat) (command : MtimerCommand) : MachineM Answer := do
  let device ← Ipi.onOutside (mtimer number)
  let config := device.config
  match command with
  | .access => return .text config.access.name
  | .validate => silently (Ipi.onOutside (orRefuse config.validate))
  | .setReference reference => silently (Ipi.onOutside (setReference number reference))
  | .reference => return .number? device.reference
  | .time hart => return .word (← config.time hart)
  | .compare hart => return .word? (← config.compare hart)
  | .arm hart deadline => silently (config.arm hart deadline)
  | .disarm hart => silently (config.disarm hart)
  | .isPending hart => return .flag? (← config.isPending hart)
  | .sync hart => return .flag (← sync number hart)
  | .delta => return .word? device.delta

def runMtimerDriver (driver : DriverId) : MtimerDriverCommand → MachineM Answer
  | .bind number reference => silently (Ipi.onOutside (bindMtimer driver number reference))
  | .serving hart => do return .number? (← Ipi.onOutside (mtimerServing driver hart))
  | .bringUp hart => silently (driverBringUpTimer driver hart)
  | .frequency => do return .word ((← get).outside.mtimerDrivers driver).frequency
  | .time hart => do return .word (← Ipi.onOutside (driverTime driver hart))
  | .arm hart deadline => silently (driverArm driver hart deadline)
  | .disarm hart => silently (driverDisarm driver hart)
  | .describe => do return .text ((← get).outside.mtimerDrivers driver).text

def runIpi : IpiCommand → MachineM Answer
  | .register controller => silently (registerController controller)
  | .controller => do return .name? (controllerName? (← get))
  | .require => silently (discard Ipi.requireController)
  | .bringUp hart => silently (bringUpIpi hart)
  | .makeAvailable hart => silently (Ipi.makeAvailable hart)
  | .makeUnavailable hart => silently (Ipi.makeUnavailable hart)
  | .available => do return .harts (← get).dispatcher.available
  | .send origin targets event => silently (send origin targets event)
  | .process hart => silently (process hart)
  | .processQuietly hart => silently (processQuietly hart)
  | .clearSupervisor => return .done
  | .describe => do return .text (ipiText (← get))

def runTimer : TimerCommand → MachineM Answer
  | .register device => silently (Ipi.onOutside (registerTimer device (deviceName device)))
  | .device => do return .name? (timerName? (← get))
  | .require => silently (discard requireTimer)
  | .bringUp hart => silently (bringUpTimer hart)
  | .frequency => do return .word (← Ipi.onOutside timerFrequency)
  | .time hart => do return .word (← Ipi.onOutside (timerValue hart))
  | .start hart deadline => silently (startTimer hart deadline)
  | .stop hart => silently (stopTimer hart)
  | .delayTicks hart ticks => silently (delayTicks hart ticks)
  | .delay hart amount unit => silently (delay hart amount unit)
  | .describe => do return .text (timerText (← get))

def runBoard : BoardCommand → MachineM Answer
  | .earlyInit commandLine => silently (earlyInit commandLine)
  | .bootIpi hart cold => silently (bootIpi hart cold)
  | .bootTimer hart cold => silently (bootTimer hart cold)
  | .installConsole limit => silently (Ipi.onOutside (installConsole limit))
  | .log entry => silently (Ipi.onOutside (log entry))

def run : Command → MachineM Answer
  | .bench command => runBench command
  | .domain command => runDomain command
  | .mswi number command => runMswi number command
  | .mswiDriver driver command => runMswiDriver driver command
  | .mtimer number command => runMtimer number command
  | .mtimerDriver driver command => runMtimerDriver driver command
  | .ipi command => runIpi command
  | .timer command => runTimer command
  | .board command => runBoard command

structure Report where
  outcome : Except Exit Answer
  trace : List Entry
  output : String

/-- Runs a command as a step of its own, with an empty trace and console. -/
def step (m : Machine) (command : Command) : Report × Machine :=
  let fresh : Machine := { m with outside := { m.outside with trace := [], output := "" } }
  match run command fresh with
  | .ok answer after =>
      (⟨.ok answer, after.outside.trace.reverse, after.outside.output⟩, after)
  | .error exit after =>
      (⟨.error exit, after.outside.trace.reverse, after.outside.output⟩, after)

def begun (m : Machine) : Machine :=
  { m with outside := { m.outside with trace := [], output := "" } }

theorem step_eq (m : Machine) (command : Command) :
    step m command = match run command m.begun with
      | .ok answer after =>
          (⟨.ok answer, after.outside.trace.reverse, after.outside.output⟩, after)
      | .error exit after =>
          (⟨.error exit, after.outside.trace.reverse, after.outside.output⟩, after) := rfl

theorem step_snd (m : Machine) (command : Command) :
    (step m command).2 = finalState (run command) m.begun := by
  rw [step_eq]
  unfold finalState
  cases run command m.begun with
  | ok answer after => rfl
  | error exit after => rfl

theorem ok_of_step {m : Machine} {command : Command} {answer : Answer}
    (h : (step m command).1.outcome = .ok answer) :
    run command m.begun = .ok answer (step m command).2 ∧
      (step m command).1.trace = (step m command).2.outside.trace.reverse := by
  rw [step_eq] at h ⊢
  cases hrun : run command m.begun with
  | ok found after =>
      rw [hrun] at h
      cases h
      exact ⟨rfl, rfl⟩
  | error exit after =>
      rw [hrun] at h
      cases h

end Machine
end Interhart
