import Interhart.Machine.Command
import Interhart.Proofs.Machine.Enrolling
import Interhart.Proofs.Machine.Protecting
import Interhart.Proofs.Machine.Surroundings

/-!
# What a machine changes

Whatever a machine is asked, it comes down to changes of few kinds, and those that concern
devices and drivers look before they write.  What no single change breaks is kept by every
command, however it ends.
-/

namespace Interhart
namespace Bench

/-- The single changes of a bench. -/
inductive Change (b : Bench) : Bench → Prop
  /-- Anything may happen to what is neither a device nor a driver nor the timer. -/
  | around (bus : Bus) (clocks : List Clock) (domain : Domain) (script : Script)
      (logger : Logger) (trace : List Entry) (output : String) :
      Change b { b with
        bus := bus, clocks := clocks, domain := domain, script := script, logger := logger
        trace := trace, output := output }
  | registering (device : TimerDevice) : Change b { b with timer := some (b.timer.getD device) }
  | bindingMswi (driver : DriverId) (harts : HartRange) (number : Nat)
      (hvacant : (b.mswiDrivers driver).devices.isVacant harts = true) :
      Change b { b with mswiDrivers := fun d =>
        if d = driver then
          { b.mswiDrivers d with devices := (b.mswiDrivers driver).devices.assign harts number }
        else b.mswiDrivers d }
  | bindingMtimer (driver : DriverId) (harts : HartRange) (number : Nat)
      (hvacant : (b.mtimerDrivers driver).devices.isVacant harts = true) :
      Change b (b.assigning driver ((b.mtimerDrivers driver).devices.assign harts number))
  | tuning (driver : DriverId) (frequency : UInt64) :
      Change b { b with mtimerDrivers := fun d =>
        if d = driver then
          { b.mtimerDrivers d with frequency :=
              if (b.mtimerDrivers d).frequency = 0 then frequency
              else (b.mtimerDrivers d).frequency }
        else b.mtimerDrivers d }
  | following (number reference : Nat) (hother : number ≠ reference) :
      Change b { b with mtimers := b.mtimers.modify number (·.following reference) }
  | beginning (number : Nat) : Change b (b.beginning number)
  | adjusting (number : Nat) (delta : UInt64) : Change b (b.adjusting number delta)

/-- No single change breaks an invariant. -/
def Stable (invariant : Bench → Prop) : Prop :=
  ∀ b b', Change b b' → invariant b → invariant b'

section Keeping

variable {invariant : Bench → Prop}

theorem keeps_claim (table : Bench → HartTable Nat) {harts : HartRange} {number : Nat}
    {rest : HartTable Nat → BenchM Unit}
    (hrest : ∀ b, invariant b → (table b).isVacant harts = true →
      Contract (· = b) (rest ((table b).assign harts number)) (fun _ => invariant)
        fun _ => invariant) :
    Keeps invariant
      (get >>= fun b => orRefuse ((table b).bindRange harts number) >>= rest) := by
  apply Contract.get_bind
  intro b hb
  unfold HartTable.bindRange
  split
  · exact hrest b hb ‹_›
  · rintro _ rfl
    exact hb

end Keeping

/-- What is kept by records of the log, and by every single change that leaves the registers
and the log's settings alone. -/
structure Steady (invariant : Bench → Prop) : Prop where
  changing {b b' : Bench} : Change b b' → b'.bus = b.bus → b'.logger = b.logger →
    invariant b → invariant b'
  logging (entry : LogRecord) : Keeps invariant (log entry)

namespace Steady

variable {invariant : Bench → Prop} (h : Steady invariant)

include h

theorem growing {b : Bench} (grown : Domain) (hb : invariant b) :
    invariant { b with domain := grown } :=
  h.changing (.around b.bus b.clocks grown b.script b.logger b.trace b.output) rfl rfl hb

theorem recordingRegion (region : Region) : Keeps invariant (recordRegion region) :=
  keeps_recordRegion h.logging fun _ grown _ => h.growing grown

theorem protecting (base size : UInt64) (largest : Nat) :
    Keeps invariant (protectRange base size largest) :=
  keeps_protectRange h.logging fun _ _ _ grown _ => h.growing grown

theorem referring (number reference : Nat) :
    Keeps invariant (setReference number reference) := by
  refine (keeps_mtimer number).bind fun device => ?_
  split
  · exact h.logging _
  · apply Keeps.modifying
    exact fun _ hb => h.changing (.following number reference ‹_›) rfl rfl hb

theorem registering (device : TimerDevice) (name : String) :
    Keeps invariant (registerTimer device name) := by
  refine Contract.get_bind fun b hb =>
    Keeps.changed (h.changing (.registering device) rfl rfl hb) ?_
  split
  · exact h.logging _
  · exact .value ()

theorem bindingMswi (driver : DriverId) (number : Nat) :
    Keeps invariant (bindMswi driver number) := by
  refine (keeps_mswi number).bind fun config => (Keeps.answering _).bind fun _ => ?_
  refine Keeps.looking fun b _ => (Checks.keeping fun _ => checks_requireVacant _ _).bind
    fun _ => ?_
  refine Keeps.bind (.forM fun range _ => h.protecting _ _ _) fun _ => ?_
  refine keeps_claim (fun b => (b.mswiDrivers driver).devices) fun b hb hvacant => ?_
  have hclaim := h.changing (.bindingMswi driver config.harts number hvacant) rfl rfl hb
  exact Keeps.changed hclaim (h.logging _)

theorem bindingMtimer (driver : DriverId) (number : Nat) (reference : Option Nat) :
    Keeps invariant (bindMtimer driver number reference) := by
  refine (keeps_mtimer number).bind fun device => (Keeps.answering _).bind fun _ => ?_
  refine (Checks.keeping fun _ => checks_requireSameFrequency _ _).bind fun _ => ?_
  refine Keeps.looking fun b _ => (Checks.keeping fun _ => checks_requireVacant _ _).bind
    fun _ => ?_
  have hranges : Keeps invariant (orFault device.config.ranges) := by
    cases device.config.ranges with
    | ok ranges => exact .value ranges
    | error fault => exact .exit _
  refine hranges.bind fun ranges => ?_
  refine Keeps.bind (.forM fun range _ => h.protecting _ _ _) fun _ => ?_
  refine keeps_claim (fun b => (b.mtimerDrivers driver).devices) fun b hb hvacant => ?_
  have hclaim := h.changing (.bindingMtimer driver device.config.harts number hvacant)
    rfl rfl hb
  refine Keeps.changed hclaim ?_
  have hannounce : Keeps invariant (do
      setMtimerDriver driver fun d =>
        { d with frequency := if d.frequency = 0 then device.config.frequency else d.frequency }
      log device.config.boundRecord
      registerTimer (.mtimer driver) Mtimer.Driver.name) := by
    refine Keeps.bind (.modifying fun b hb => ?_) fun _ => (h.logging _).bind fun _ => ?_
    · exact h.changing (.tuning driver device.config.frequency) rfl rfl hb
    · exact h.registering _ _
  cases reference with
  | none => exact hannounce
  | some followed => exact (h.referring number followed).bind fun _ => hannounce

end Steady

theorem steady_bus (bus : Bus) : Steady fun b => b.logger.isOff = true ∧ b.bus = bus where
  changing _ hbus hlogger hb := ⟨hlogger ▸ hb.1, hbus.trans hb.2⟩
  logging entry b hb := by
    rw [log_of_isOff hb.1]
    exact hb

namespace Stable

variable {invariant : Bench → Prop} (h : Stable invariant)

include h

theorem lasting : Lasting invariant :=
  fun b bus clocks trace output reactions _ hb =>
    h b _ (.around bus clocks b.domain { b.script with reactions := reactions } b.logger trace
      output) hb

theorem steady : Steady invariant where
  changing hchange _ _ := h _ _ hchange
  logging entry := h.lasting.passing (.logging entry)

theorem installing (limit : LogLimit) : Keeps invariant (installConsole limit) := by
  apply Keeps.modifying
  intro b hb
  split
  · exact h b _
      (.around b.bus b.clocks b.domain b.script (.console (some limit)) b.trace b.output) hb
  · exact hb

end Stable
end Bench

namespace Machine

open Bench

inductive Change (m : Machine) : Machine → Prop
  | outside {b : Bench} (h : Bench.Change m.outside b) : Change m (m.within b)
  | inside (dispatcher : Ipi.Dispatcher Controller) (history : List Ipi.Incident)
      (hcontroller : dispatcher.controller = m.dispatcher.controller) :
      Change m { m with dispatcher := dispatcher, history := history }
  | registering (controller : Controller) :
      Change m (m.changing fun dispatcher =>
        { dispatcher with controller := some (m.dispatcher.controller.getD controller) })

def Stable (invariant : Machine → Prop) : Prop :=
  ∀ m m', Change m m' → invariant m → invariant m'

section Keeping

variable {invariant : Machine → Prop}

theorem keeps_requireController :
    Keeps invariant (Ipi.requireController : MachineM Controller) := by
  apply Keeps.looking
  intro m _
  cases m.dispatcher.controller with
  | none => exact .exit _
  | some controller => exact .value controller

theorem keeps_requireTimer : Keeps invariant requireTimer := by
  apply Keeps.looking
  intro m _
  cases m.outside.timer with
  | none => exact .exit _
  | some device => exact .value device

theorem keeps_withTimer {action : TimerDevice → MachineM Unit}
    (haction : ∀ device, Keeps invariant (action device)) :
    Keeps invariant (withTimer action) := by
  apply Keeps.looking
  intro m _
  cases m.outside.timer with
  | none => exact .value ()
  | some device => exact haction device

theorem keeps_silently {operation : MachineM Unit} (hoperation : Keeps invariant operation) :
    Keeps invariant (silently operation) :=
  hoperation.bind fun _ => .value _

theorem keeps_show (answer : Machine → Answer) :
    Keeps invariant (get >>= fun m => pure (answer m) : MachineM Answer) :=
  Keeps.looking fun _ _ => .value _

end Keeping

namespace Stable

variable {invariant : Machine → Prop} (h : Stable invariant)

include h

theorem outside (m : Machine) : Bench.Stable fun b => invariant (m.within b) :=
  fun b b' hchange hb => h (m.within b) (m.within b') (.outside hchange) hb

theorem enduring : Enduring invariant where
  inside m dispatcher history hcontroller hm :=
    h m _ (.inside dispatcher history hcontroller) hm
  outside m := (h.outside m).lasting

theorem onBench {α : Type} {step : BenchM α}
    (hstep : ∀ kept : Bench → Prop, Bench.Stable kept → Keeps kept step) :
    Keeps invariant (Ipi.onOutside step) :=
  Ipi.keeps_onOutside_of_within fun m => hstep _ (h.outside m)

theorem passing {α : Type} {step : BenchM α} (hpassive : Passive step) :
    Keeps invariant (Ipi.onOutside step) :=
  h.enduring.passing hpassive

theorem logging (entry : LogRecord) : Keeps invariant (Ipi.onOutside (log entry)) :=
  h.passing (.logging entry)

theorem findingMswi (number : Nat) : Keeps invariant (Ipi.onOutside (mswi number)) :=
  h.onBench fun _ _ => keeps_mswi number

theorem findingMtimer (number : Nat) : Keeps invariant (Ipi.onOutside (mtimer number)) :=
  h.onBench fun _ _ => keeps_mtimer number

theorem servingMtimer (driver : DriverId) (hart : Nat) :
    Keeps invariant (Ipi.onOutside (mtimerServing driver hart)) :=
  h.onBench fun _ _ => Keeps.looking fun _ _ => .value _

/-!
# The dispatcher
-/

theorem registeringController (controller : Controller) :
    Keeps invariant (registerController controller) :=
  Contract.registering (fun m hm => h m _ (.registering controller) hm) h.logging

theorem calling (made : Ipi.Call) : Keeps invariant (made.run Bench.environment handle) :=
  h.enduring.dispatching.run (fun calls _ => h.enduring.handling calls) trivial

theorem bringingUpIpi (hart : Nat) : Keeps invariant (bringUpIpi hart) :=
    h.calling (.bringUp hart)

theorem bindingMswi (driver : DriverId) (number : Nat) :
    Keeps invariant (bindMswi driver number) :=
  (h.onBench fun _ hkept => hkept.steady.bindingMswi driver number).bind fun _ =>
    h.registeringController _

/-!
# Timers
-/

theorem arming (config : Mtimer.Config) (hart : Nat) (deadline : UInt64) :
    Keeps invariant (config.arm hart deadline) := by
  unfold Mtimer.Config.arm
  cases config.compareRegister? hart with
  | none => exact .value ()
  | some address => exact h.enduring.accessing _ _ _ _

theorem timing (config : Mtimer.Config) (hart : Nat) : Keeps invariant (config.time hart) := by
  rw [Mtimer.Config.time_eq]
  exact h.passing (.accessing _ _)

theorem aligning (config reference : Mtimer.Config) (hart : Nat) :
    Keeps invariant (config.align reference hart : MachineM UInt64) := by
  refine (h.timing config hart).bind fun before =>
    (h.timing reference hart).bind fun there => ?_
  refine (h.timing config hart).bind fun after => (h.timing config hart).bind fun last => ?_
  exact (h.enduring.accessing _ _ _ _).bind fun _ => .value _

theorem syncing (number hart : Nat) : Keeps invariant (sync number hart) := by
  refine (h.findingMtimer number).bind fun device => ?_
  cases device.reference with
  | none => exact .value false
  | some reference =>
      dsimp only
      split
      · exact .value false
      · have hbegin : Keeps invariant
            (Ipi.onOutside (setMtimer number fun d => { d with aligned := true })) :=
          h.onBench fun _ hkept => .modifying fun b hb => hkept b _ (.beginning number) hb
        refine hbegin.bind fun _ => (h.findingMtimer reference).bind fun followed => ?_
        refine (h.aligning device.config followed.config hart).bind fun delta => ?_
        refine Keeps.bind (h.onBench fun kept hkept => ?_) fun _ => .value true
        refine Keeps.bind ?_ fun _ => hkept.steady.logging _
        exact .modifying fun b hb => hkept b _ (.adjusting number delta) hb

theorem driverArming (driver : DriverId) (hart : Nat) (deadline : UInt64) :
    Keeps invariant (driverArm driver hart deadline) := by
  refine (h.servingMtimer driver hart).bind fun serving => ?_
  cases serving with
  | none => exact .value ()
  | some number => exact (h.findingMtimer number).bind fun device => h.arming device.config _ _

theorem driverBringingUp (driver : DriverId) (hart : Nat) :
    Keeps invariant (driverBringUpTimer driver hart) := by
  refine (h.servingMtimer driver hart).bind fun serving => ?_
  cases serving with
  | none => exact .exit _
  | some number =>
      refine (h.syncing number hart).discarding.bind fun _ => ?_
      exact (h.findingMtimer number).bind fun device => h.arming device.config _ _

theorem starting (hart : Nat) (deadline : UInt64) (device : TimerDevice) :
    Keeps invariant (deviceStart device hart deadline) := by
  cases device with
  | mtimer driver => exact h.driverArming driver hart deadline
  | clock number => exact h.enduring.recording _

theorem stopping (hart : Nat) (device : TimerDevice) :
    Keeps invariant (deviceStop device hart) := by
  cases device with
  | mtimer driver => exact h.driverArming driver hart _
  | clock number => exact h.enduring.recording _

theorem bringingUpTimer (hart : Nat) : Keeps invariant (bringUpTimer hart) := by
  refine keeps_requireTimer.bind fun device => ?_
  cases device with
  | mtimer driver => exact h.driverBringingUp driver hart
  | clock number => exact h.stopping hart (.clock number)

theorem waiting (hart : Nat) (ticks : UInt64) : Keeps invariant (delayTicks hart ticks) := by
  refine keeps_withTimer fun device => h.passing ?_
  have hread : Passive (deviceTime device hart) := by
    cases device with
    | mtimer driver => exact .readingDriver driver hart
    | clock number => exact .readingClock number
  exact hread.bind fun start => .polling (hread.bind fun now => .value _) _

/-!
# Commands
-/

theorem changing {change : Bench → Bench} (hchange : ∀ b, Bench.Change b (change b)) :
    Keeps invariant (changeBench change) :=
  keeps_silently (h.onBench fun _ hkept => .modifying fun b hb => hkept b _ (hchange b) hb)

theorem runBench (command : BenchCommand) : Keeps invariant (runBench command) := by
  cases command with
  | poke address word => exact h.changing fun b => .around _ _ _ _ _ _ _
  | poke64 address value => exact h.changing fun b => .around _ _ _ _ _ _ _
  | trapAtAddress address harts => exact h.changing fun b => .around _ _ _ _ _ _ _
  | trapAtHart hart harts => exact h.changing fun b => .around _ _ _ _ _ _ _
  | react reaction => exact h.changing fun b => .around _ _ _ _ _ _ _
  | peek address => exact keeps_show _
  | read32 address =>
      refine Keeps.bind ?_ fun _ => .value _
      rw [load32_eq]
      exact h.passing (.loading32 address)
  | read64 address =>
      refine Keeps.bind ?_ fun _ => .value _
      change Keeps invariant (RegisterAccess.whole.read address : MachineM UInt64)
      rw [read_eq]
      exact h.passing (.loading64 address)
  | write32 address value => exact keeps_silently (h.enduring.storing32 address value)
  | write64 address value => exact keeps_silently (h.enduring.storing64 address value)
  | showClock number =>
      apply Keeps.looking
      intro m _
      cases m.outside.clocks[number]? with
      | none => exact .exit _
      | some clock => exact .value _

theorem runDomain (command : DomainCommand) : Keeps invariant (runDomain command) := by
  cases command with
  | record region =>
      exact keeps_silently (h.onBench fun _ hkept => hkept.steady.recordingRegion region)
  | protect base size largest =>
      exact keeps_silently (h.onBench fun _ hkept => hkept.steady.protecting base size _)
  | find address => exact keeps_show _
  | isProtected address => exact keeps_show _
  | size => exact keeps_show _

theorem runMswi (number : Nat) (command : MswiCommand) :
    Keeps invariant (runMswi number command) := by
  refine (h.findingMswi number).bind fun config => ?_
  have hwrite (hart : Nat) (value : UInt32) :
      Keeps invariant (config.write hart value : MachineM Unit) := by
    unfold Mswi.Config.write
    cases config.register? hart with
    | none => exact .value ()
    | some address => exact h.enduring.storing32 address value
  cases command with
  | raise hart => exact keeps_silently (hwrite hart 1)
  | clear hart => exact keeps_silently (hwrite hart 0)
  | isPending hart =>
      refine Keeps.bind ?_ fun _ => .value _
      unfold Mswi.Config.isPending
      cases config.register? hart with
      | none => exact .value none
      | some address =>
          dsimp only
          rw [load32_eq]
          exact (h.passing (.loading32 address)).bind fun _ => .value _
  | validate => exact keeps_silently (h.onBench fun _ _ => .answering _)

theorem runMswiDriver (driver : DriverId) (command : MswiDriverCommand) :
    Keeps invariant (runMswiDriver driver command) := by
  have hclear (hart : Nat) : Keeps invariant (Ipi.onOutside (Bench.driverClear driver hart)) :=
    h.onBench fun _ hkept => hkept.lasting.clearing (.mswi driver) hart
  cases command with
  | bind number => exact keeps_silently (h.bindingMswi driver number)
  | serving hart =>
      exact (h.onBench fun _ _ => Keeps.looking fun _ _ => .value _).bind fun _ => .value _
  | raise hart =>
      refine keeps_silently (h.enduring.interrupting fun _ hkept => ?_)
      exact hkept.raising (.mswi driver) hart
  | clear hart => exact keeps_silently (hclear hart)
  | bringUp hart =>
      refine keeps_silently (Keeps.looking fun m _ => ?_)
      cases Bench.driverRefusal driver hart m.outside with
      | some error => exact .exit _
      | none => exact hclear hart
  | describe => exact keeps_show _

theorem runMtimer (number : Nat) (command : MtimerCommand) :
    Keeps invariant (runMtimer number command) := by
  refine (h.findingMtimer number).bind fun device => ?_
  cases command with
  | access => exact .value _
  | reference => exact .value _
  | delta => exact .value _
  | validate => exact keeps_silently (h.onBench fun _ _ => .answering _)
  | setReference reference =>
      exact keeps_silently (h.onBench fun _ hkept => hkept.steady.referring number reference)
  | time hart => exact (h.timing device.config hart).bind fun _ => .value _
  | compare hart =>
      refine Keeps.bind ?_ fun _ => .value _
      rw [Mtimer.Config.compare_eq]
      exact h.passing (Mtimer.Config.passive_compare device.config hart)
  | isPending hart =>
      refine Keeps.bind ?_ fun _ => .value _
      rw [Mtimer.Config.isPending_eq]
      exact h.passing (Mtimer.Config.passive_isPending device.config hart)
  | arm hart deadline => exact keeps_silently (h.arming device.config hart deadline)
  | disarm hart => exact keeps_silently (h.arming device.config hart _)
  | sync hart => exact (h.syncing number hart).bind fun _ => .value _

theorem runMtimerDriver (driver : DriverId) (command : MtimerDriverCommand) :
    Keeps invariant (runMtimerDriver driver command) := by
  cases command with
  | bind number reference =>
      refine keeps_silently (h.onBench fun _ hkept => ?_)
      exact hkept.steady.bindingMtimer driver number reference
  | serving hart => exact (h.servingMtimer driver hart).bind fun _ => .value _
  | bringUp hart => exact keeps_silently (h.driverBringingUp driver hart)
  | frequency => exact keeps_show _
  | time hart => exact (h.passing (.readingDriver driver hart)).bind fun _ => .value _
  | arm hart deadline => exact keeps_silently (h.driverArming driver hart deadline)
  | disarm hart => exact keeps_silently (h.driverArming driver hart _)
  | describe => exact keeps_show _

theorem runIpi (command : IpiCommand) : Keeps invariant (runIpi command) := by
  cases command with
  | register controller => exact keeps_silently (h.registeringController controller)
  | controller => exact keeps_show _
  | require => exact keeps_silently keeps_requireController.discarding
  | bringUp hart => exact keeps_silently (h.bringingUpIpi hart)
  | makeAvailable hart => exact keeps_silently (h.calling (.makeAvailable hart))
  | makeUnavailable hart => exact keeps_silently (h.calling (.makeUnavailable hart))
  | available => exact keeps_show _
  | send origin targets event => exact keeps_silently (h.calling (.send origin targets event))
  | process hart => exact keeps_silently (h.calling (.process hart))
  | processQuietly hart =>
      refine keeps_silently (Keeps.bind ?_ fun ending => ?_)
      · exact h.enduring.dispatchingQuietly.drain (fun calls _ => h.enduring.handling calls)
          hart
      · split
        · exact .exit _
        · exact .value ()
  | clearSupervisor => exact .value _
  | describe => exact keeps_show _

theorem runTimer (command : TimerCommand) : Keeps invariant (runTimer command) := by
  have hfrequency : Keeps invariant (Ipi.onOutside timerFrequency) :=
    h.onBench fun _ _ => Keeps.looking fun _ _ => .value _
  cases command with
  | register device =>
      exact keeps_silently (h.onBench fun _ hkept => hkept.steady.registering device _)
  | device => exact keeps_show _
  | require => exact keeps_silently keeps_requireTimer.discarding
  | bringUp hart => exact keeps_silently (h.bringingUpTimer hart)
  | frequency => exact hfrequency.bind fun _ => .value _
  | time hart => exact (h.passing (.timing hart)).bind fun _ => .value _
  | start hart deadline => exact keeps_silently (keeps_withTimer (h.starting hart deadline))
  | stop hart => exact keeps_silently (keeps_withTimer (h.stopping hart))
  | delayTicks hart ticks => exact keeps_silently (h.waiting hart ticks)
  | delay hart amount unit =>
      exact keeps_silently (hfrequency.bind fun _ => h.waiting hart _)
  | describe => exact keeps_show _

theorem runBoard (command : BoardCommand) : Keeps invariant (runBoard command) := by
  cases command with
  | earlyInit commandLine =>
      refine keeps_silently (h.onBench fun _ hkept => (hkept.installing _).bind fun _ => ?_)
      exact Keeps.looking fun b _ => hkept.steady.logging _
  | bootIpi hart cold =>
      refine keeps_silently ?_
      cases cold with
      | false => exact h.bringingUpIpi hart
      | true =>
          refine Keeps.looking fun m _ => Keeps.bind (.forM fun number _ => ?_) fun _ => ?_
          · exact h.bindingMswi boardDriver number
          · exact keeps_requireController.discarding.bind fun _ => h.bringingUpIpi hart
  | bootTimer hart cold =>
      refine keeps_silently ?_
      cases cold with
      | false => exact h.bringingUpTimer hart
      | true =>
          refine Keeps.looking fun m _ => Keeps.bind (.forM fun number _ => ?_) fun _ => ?_
          · exact h.onBench fun _ hkept => hkept.steady.bindingMtimer boardDriver number _
          · exact keeps_requireTimer.discarding.bind fun _ => h.bringingUpTimer hart
  | installConsole limit =>
    exact keeps_silently (h.onBench fun _ hkept => hkept.installing limit)
  | log entry => exact keeps_silently (h.logging entry)

theorem run (command : Command) : Keeps invariant (run command) := by
  cases command with
  | bench command => exact h.runBench command
  | domain command => exact h.runDomain command
  | mswi number command => exact h.runMswi number command
  | mswiDriver driver command => exact h.runMswiDriver driver command
  | mtimer number command => exact h.runMtimer number command
  | mtimerDriver driver command => exact h.runMtimerDriver driver command
  | ipi command => exact h.runIpi command
  | timer command => exact h.runTimer command
  | board command => exact h.runBoard command

theorem step {m : Machine} (hm : invariant m) (command : Command) :
    invariant (step m command).2 := by
  rw [step_snd]
  have hbegun : invariant m.begun :=
    h m m.begun (.outside (.around _ _ _ _ _ [] "")) hm
  exact (h.run command).finalState hbegun

end Stable
end Machine
end Interhart
