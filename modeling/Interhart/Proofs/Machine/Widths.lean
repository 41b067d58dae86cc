import Interhart.Machine.Command
import Interhart.Proofs.InStep
import Interhart.Proofs.Machine.Accesses

/-!
# Access widths

Over memory that stands still unless it is written, and as long as no write interrupts a hart,
it makes no difference to a machine whether its timer devices are accessed whole or as halves:
every call gives the same answer and leaves the same memory, wherever the registers lie.
-/

namespace Interhart

/-!
# What does not depend on the width
-/

namespace Mtimer

def Config.plain (config : Config) : Config := { config with supportsWhole := false }

def Device.plain (device : Device) : Device := { device with config := device.config.plain }

theorem Device.plain_config {device device' : Device} (h : device.plain = device'.plain) :
    device.config.plain = device'.config.plain := congrArg Device.config h

end Mtimer

namespace Bench

def plain (b : Bench) : Bench := { b with mtimers := b.mtimers.map (·.plain), trace := [] }

/-- Two benches that differ at most in the widths of their devices and in what has been traced.
Their memory stands still unless it is written. -/
structure Twins (b c : Bench) : Prop where
  plain : b.plain = c.plain
  valid : ∀ device ∈ b.mtimers, device.config.isValid = true
  counters : b.bus.counters = []
  untrapped : ∀ address, b.script.atAddress address = []

namespace Twins

variable {b c : Bench} {α : Type}

theorem same {β : Type} (h : Twins b c) (part : Bench → β)
    (hpart : ∀ b, part b.plain = part b) : part b = part c := by
  rw [← hpart b, h.plain, hpart c]

theorem bus (h : Twins b c) : b.bus = c.bus := h.same (·.bus) fun _ => rfl

theorem clocks (h : Twins b c) : b.clocks = c.clocks := h.same (·.clocks) fun _ => rfl

theorem drivers (h : Twins b c) : b.mtimerDrivers = c.mtimerDrivers :=
  h.same (·.mtimerDrivers) fun _ => rfl

theorem getElem? (h : Twins b c) (number : Nat) :
    (b.mtimers[number]?).map (·.plain) = (c.mtimers[number]?).map (·.plain) := by
  have hdevices := congrArg (·.mtimers[number]?) h.plain
  simpa [Bench.plain] using hdevices

theorem symm (h : Twins b c) : Twins c b := by
  refine ⟨h.plain.symm, ?_, ?_, ?_⟩
  · intro device hmem
    have hplain : device.plain ∈ b.mtimers.map (·.plain) := by
      rw [h.same (·.mtimers.map (·.plain)) fun b => ?_]
      · exact List.mem_map_of_mem hmem
      · change (b.mtimers.map _).map _ = _
        rw [List.map_map]
        rfl
    rcases List.mem_map.mp hplain with ⟨other, hother, hsame⟩
    have hvalid := h.valid other hother
    rw [show other.config.isValid = other.plain.config.isValid from rfl, hsame] at hvalid
    exact hvalid
  · rw [← h.bus]
    exact h.counters
  · rw [← h.same (·.script) fun _ => rfl]
    exact h.untrapped

theorem tracing (h : Twins b c) (trace trace' : List Entry) :
    Twins { b with trace := trace } { c with trace := trace' } :=
  ⟨h.plain, h.valid, h.counters, h.untrapped⟩

theorem modifying {change : Bench → Bench} (hplain : ∀ b, (change b).plain = change b.plain)
    (hconfigs : ∀ b, (change b).mtimers.map (·.config) = b.mtimers.map (·.config))
    (hcounters : ∀ b, (change b).bus.counters = b.bus.counters)
    (hscript : ∀ b, (change b).script = b.script) :
    InStep Twins (modify change) (modify change) := by
  apply InStep.modifying
  intro b c h
  refine ⟨?_, ?_, (hcounters b).trans h.counters, ?_⟩
  · rw [hplain b, hplain c, h.plain]
  · intro device hmem
    have hconfig : device.config ∈ b.mtimers.map (·.config) := by
      rw [← hconfigs]
      exact List.mem_map_of_mem hmem
    rcases List.mem_map.mp hconfig with ⟨old, hold, hsame⟩
    rw [← hsame]
    exact h.valid old hold
  · rw [hscript]
    exact h.untrapped

theorem still (h : Twins b c) (address : UInt64) : b.bus.Still address :=
  Bus.still_of_no_counters h.counters address

theorem silent (h : Twins b c) (address : UInt64) : b.Untrapped address :=
  ⟨h.untrapped address, h.untrapped (address + 4)⟩

/-!
# Reading
-/

theorem reading (access access' : RegisterAccess) {address : UInt64}
    (haligned : 8 ∣ address.toNat) :
    InStep Twins (access.read address : BenchM UInt64) (access'.read address) := by
  intro b c h
  have hstill := h.still address
  have hstill' : c.bus.Still address := h.bus ▸ hstill
  rw [read_of_still access haligned hstill, read_of_still access' haligned hstill']
  exact ⟨congrArg (·.peek64 address) h.bus, h.tracing _ _⟩

theorem mtimer_cases (h : Twins b c) (number : Nat) :
    (b.mtimers[number]? = none ∧ c.mtimers[number]? = none) ∨
      ∃ device device', b.mtimers[number]? = some device ∧ c.mtimers[number]? = some device' ∧
        device.plain = device'.plain ∧ device.config.isValid = true := by
  have hsame := h.getElem? number
  cases hb : b.mtimers[number]? with
  | none =>
      rw [hb] at hsame
      exact .inl ⟨rfl, Option.map_eq_none_iff.mp hsame.symm⟩
  | some device =>
      rw [hb] at hsame
      rcases Option.map_eq_some_iff.mp hsame.symm with ⟨device', hc, hplain⟩
      exact .inr ⟨device, device', rfl, hc, hplain.symm,
        h.valid device (List.mem_of_getElem? hb)⟩

theorem looking (number : Nat) {rest rest' : Mtimer.Device → BenchM α}
    (h : ∀ device device', device.plain = device'.plain → device.config.isValid = true →
      InStep Twins (rest device) (rest' device')) :
    InStep Twins (mtimer number >>= rest) (mtimer number >>= rest') := by
  intro b c htwins
  rcases htwins.mtimer_cases number with
    ⟨hb, hc⟩ | ⟨device, device', hb, hc, hplain, hvalid⟩
  · rw [bind_of_error (mtimer_of_none hb), bind_of_error (mtimer_of_none hc)]
    exact ⟨rfl, htwins⟩
  · rw [bind_of_ok (mtimer_of_some hb), bind_of_ok (mtimer_of_some hc)]
    exact h device device' hplain hvalid b c htwins

variable {config config' : Mtimer.Config} {hart : Nat}

theorem timing (h : config.plain = config'.plain) (hvalid : config.isValid = true) :
    InStep Twins (config.time hart : BenchM UInt64) (config'.time hart) := by
  have hregister : config.timeRegister hart = config'.timeRegister hart :=
    congrArg (·.timeRegister hart) h
  unfold Mtimer.Config.time
  rw [← hregister]
  exact reading _ _ (Mtimer.Config.dvd_timeRegister hvalid hart)

theorem comparing (h : config.plain = config'.plain) (hvalid : config.isValid = true) :
    InStep Twins (config.compare hart : BenchM (Option UInt64)) (config'.compare hart) := by
  have hregister : config.compareRegister? hart = config'.compareRegister? hart :=
    congrArg (·.compareRegister? hart) h
  unfold Mtimer.Config.compare
  rw [← hregister]
  cases hfound : config.compareRegister? hart with
  | none => exact .value none
  | some address =>
      exact (reading _ _ (Mtimer.Config.dvd_compareRegister hvalid hfound)).bind
        fun _ => .value _

theorem pending (h : config.plain = config'.plain) (hvalid : config.isValid = true) :
    InStep Twins (config.isPending hart : BenchM (Option Bool)) (config'.isPending hart) := by
  refine (comparing h hvalid).bind fun deadline => ?_
  cases deadline with
  | none => exact .value none
  | some deadline => exact (timing h hvalid).bind fun _ => .value _

/-!
# The log
-/

theorem clocking (number : Nat) : InStep Twins (readClock number) (readClock number) := by
  apply InStep.looking
  intro b c h
  rw [h.clocks]
  refine InStep.bind ?_ fun _ => .value _
  exact modifying (fun _ => rfl) (fun _ => rfl) (fun _ => rfl) fun _ => rfl

theorem serving (driver : DriverId) (hart : Nat) :
    InStep Twins (mtimerServing driver hart) (mtimerServing driver hart) := by
  apply InStep.looking
  intro b c h
  rw [h.drivers]
  exact .value _

theorem showing (hart : Nat) : InStep Twins (timerValue hart) (timerValue hart) := by
  apply InStep.looking
  intro b c h
  rw [h.same (·.timer) fun _ => rfl]
  cases c.timer with
  | none => exact .value 0
  | some device =>
      cases device with
      | clock number => exact clocking number
      | mtimer driver =>
          refine (serving driver hart).bind fun number => ?_
          cases number with
          | none => exact .value 0
          | some number =>
              exact looking number fun device device' hplain hvalid =>
                timing (Mtimer.Device.plain_config hplain) hvalid

theorem logging (entry : LogRecord) : InStep Twins (log entry) (log entry) := by
  apply InStep.looking
  intro b c h
  rw [h.same (·.logger) fun _ => rfl]
  cases c.logger with
  | traced limit =>
      dsimp only
      split
      · exact .modifying fun b c h => h.tracing _ _
      · exact .value ()
  | console installed =>
      cases installed with
      | none => exact .value ()
      | some limit =>
          dsimp only
          split
          · refine (showing callingHart).bind fun ticks => InStep.bind ?_ fun frequency => ?_
            · apply InStep.looking
              intro b c h
              have hfrequency : (b.timer.map b.deviceFrequency).getD 0 =
                  (c.timer.map c.deviceFrequency).getD 0 :=
                h.same (fun b => (b.timer.map b.deviceFrequency).getD 0) fun _ => rfl
              rw [hfrequency]
              exact .value _
            · refine InStep.bind ?_ fun stamp => ?_
              · cases timestamp ticks frequency with
                | ok stamp => exact .value stamp
                | error fault => exact .exit _
              · exact modifying (fun _ => rfl) (fun _ => rfl) (fun _ => rfl) fun _ => rfl
          · exact .value ()

theorem marking (number : Nat) {change : Mtimer.Device → Mtimer.Device}
    (hplain : ∀ device, (change device).plain = change device.plain)
    (hconfig : ∀ device, (change device).config = device.config) :
    InStep Twins (setMtimer number change) (setMtimer number change) := by
  refine modifying (fun b => ?_) (fun b => ?_) (fun _ => rfl) fun _ => rfl
  · have hmap : (b.mtimers.modify number change).map (·.plain) =
        (b.mtimers.map (·.plain)).modify number change := by
      apply List.ext_getElem?
      intro place
      rw [List.getElem?_map, List.getElem?_modify, List.getElem?_modify, List.getElem?_map]
      cases b.mtimers[place]? with
      | none => rfl
      | some device =>
          by_cases hplace : number = place
          · simp [hplace, hplain]
          · simp [hplace]
    unfold Bench.plain
    rw [hmap]
  · apply List.ext_getElem?
    intro place
    rw [List.getElem?_map, List.getElem?_modify, List.getElem?_map]
    cases b.mtimers[place]? with
    | none => rfl
    | some device =>
        by_cases hplace : number = place
        · simp [hplace, hconfig]
        · simp [hplace]

theorem storing (h : Twins b c) (access access' : RegisterAccess) (parked : UInt32)
    (address value : UInt64) :
    Twins (b.storing access parked address value) (c.storing access' parked address value) := by
  unfold Bench.storing
  rw [Bus.store_of_still (h.still address), Bus.store_of_still (h.symm.still address)]
  have hset : InStep Twins
      (modify fun b : Bench => { b with bus := b.bus.setRegister address value }) _ :=
    modifying (fun _ => rfl) (fun _ => rfl) (fun _ => rfl) fun _ => rfl
  exact (hset b c h).2.tracing _ _

end Twins
end Bench

/-!
# Machines
-/

namespace Machine

open Bench

structure Twins (m m' : Machine) : Prop where
  dispatcher : m.dispatcher = m'.dispatcher
  history : m.history = m'.history
  outside : Bench.Twins m.outside m'.outside

namespace Twins

variable {α : Type}

theorem onOutside {step step' : BenchM α} (h : InStep Bench.Twins step step') :
    InStep Twins (Ipi.onOutside step) (Ipi.onOutside step') := by
  intro m m' hm
  cases hrun : step m.outside with
  | ok value outside =>
      rcases h.of_ok hm.outside hrun with ⟨outside', hrun', houtside⟩
      rw [Ipi.onOutside_of_ok hrun, Ipi.onOutside_of_ok hrun']
      exact ⟨rfl, hm.dispatcher, hm.history, houtside⟩
  | error exit outside =>
      rcases h.of_error hm.outside hrun with ⟨outside', hrun', houtside⟩
      rw [Ipi.onOutside_of_error hrun, Ipi.onOutside_of_error hrun']
      exact ⟨rfl, hm.dispatcher, hm.history, houtside⟩

variable {config config' : Mtimer.Config} {hart : Nat}

theorem timing (h : config.plain = config'.plain) (hvalid : config.isValid = true) :
    InStep Twins (config.time hart : MachineM UInt64) (config'.time hart) := by
  rw [Mtimer.Config.time_eq, Mtimer.Config.time_eq]
  exact onOutside (Bench.Twins.timing h hvalid)

theorem writing (access access' : RegisterAccess) (parked : UInt32) {address : UInt64}
    (haligned : 8 ∣ address.toNat) (value : UInt64) :
    InStep Twins (access.write parked address value : MachineM Unit)
      (access'.write parked address value) := by
  intro m m' h
  rw [write_of_untrapped access parked haligned (h.outside.silent address),
    write_of_untrapped access' parked haligned (h.outside.symm.silent address)]
  exact ⟨rfl, h.dispatcher, h.history, h.outside.storing _ _ _ _ _⟩

theorem looking (number : Nat) {rest rest' : Mtimer.Device → MachineM α}
    (h : ∀ device device', device.plain = device'.plain → device.config.isValid = true →
      InStep Twins (rest device) (rest' device')) :
    InStep Twins (Ipi.onOutside (mtimer number) >>= rest)
      (Ipi.onOutside (mtimer number) >>= rest') := by
  intro m m' htwins
  rcases htwins.outside.mtimer_cases number with
    ⟨hb, hc⟩ | ⟨device, device', hb, hc, hplain, hvalid⟩
  · rw [bind_of_error (Ipi.onOutside_of_error (mtimer_of_none hb)),
      bind_of_error (Ipi.onOutside_of_error (mtimer_of_none hc))]
    exact ⟨rfl, htwins⟩
  · rw [bind_of_ok (Ipi.onOutside_of_ok (mtimer_of_some hb)),
      bind_of_ok (Ipi.onOutside_of_ok (mtimer_of_some hc))]
    exact h device device' hplain hvalid m m' htwins

theorem arming (h : config.plain = config'.plain) (hvalid : config.isValid = true)
    (deadline : UInt64) :
    InStep Twins (config.arm hart deadline : MachineM Unit) (config'.arm hart deadline) := by
  have hregister : config.compareRegister? hart = config'.compareRegister? hart :=
    congrArg (·.compareRegister? hart) h
  unfold Mtimer.Config.arm
  rw [← hregister]
  cases hfound : config.compareRegister? hart with
  | none => exact .value ()
  | some address => exact writing _ _ _ (Mtimer.Config.dvd_compareRegister hvalid hfound) _

theorem setting (h : config.plain = config'.plain) (hvalid : config.isValid = true)
    (time : UInt64) :
    InStep Twins (config.setTime hart time : MachineM Unit) (config'.setTime hart time) := by
  have hregister : config.timeRegister hart = config'.timeRegister hart :=
    congrArg (·.timeRegister hart) h
  unfold Mtimer.Config.setTime
  rw [← hregister]
  exact writing _ _ _ (Mtimer.Config.dvd_timeRegister hvalid hart) _

theorem aligning {other other' : Mtimer.Config} (h : config.plain = config'.plain)
    (hvalid : config.isValid = true) (hother : other.plain = other'.plain)
    (hotherValid : other.isValid = true) :
    InStep Twins (config.align other hart : MachineM UInt64) (config'.align other' hart) := by
  refine (timing h hvalid).bind fun before => (timing hother hotherValid).bind fun there => ?_
  refine (timing h hvalid).bind fun after => (timing h hvalid).bind fun last => ?_
  exact (setting h hvalid _).bind fun _ => .value _

theorem syncing (number hart : Nat) : InStep Twins (sync number hart) (sync number hart) := by
  unfold sync
  refine looking number fun device device' hplain hvalid => ?_
  have hreference : device.reference = device'.reference :=
    show device.plain.reference = device'.plain.reference by rw [hplain]
  have hshares : device.config.sharesTime = device'.config.sharesTime :=
    show device.plain.config.sharesTime = device'.plain.config.sharesTime by rw [hplain]
  have haligned : device.aligned = device'.aligned :=
    show device.plain.aligned = device'.plain.aligned by rw [hplain]
  rw [← hreference, ← hshares, ← haligned]
  have hconfig := Mtimer.Device.plain_config hplain
  cases device.reference with
  | none => exact .value false
  | some reference =>
      dsimp only
      split
      · exact .value false
      · have hbegin : InStep Bench.Twins
            (setMtimer number fun d => { d with aligned := true }) _ :=
          Bench.Twins.marking number (fun _ => rfl) fun _ => rfl
        refine (onOutside hbegin).bind fun _ => ?_
        refine looking reference fun followed followed' hfollowed hfollowedValid => ?_
        have hfollowedConfig := Mtimer.Device.plain_config hfollowed
        refine (aligning hconfig hvalid hfollowedConfig hfollowedValid).bind fun delta => ?_
        have hrecord : device.config.alignedRecord delta = device'.config.alignedRecord delta :=
          congrArg (·.alignedRecord delta) hconfig
        rw [← hrecord]
        have hadjust : InStep Bench.Twins
            (setMtimer number fun d => { d with delta := some (d.delta.getD delta) }) _ :=
          Bench.Twins.marking number (fun _ => rfl) fun _ => rfl
        refine InStep.bind (onOutside ?_) fun _ => .value true
        exact hadjust.bind fun _ => Bench.Twins.logging _

theorem bringingUp (driver : DriverId) (hart : Nat) :
    InStep Twins (driverBringUpTimer driver hart) (driverBringUpTimer driver hart) := by
  refine (onOutside (Bench.Twins.serving driver hart)).bind fun number => ?_
  cases number with
  | none => exact .exit _
  | some number =>
      refine ((syncing number hart).bind fun _ => .value ()).bind fun _ => ?_
      exact looking number fun device device' hplain hvalid =>
        arming (Mtimer.Device.plain_config hplain) hvalid _

end Twins
end Machine

/-!
# Sequences of calls
-/

def Command.isTimed : Command → Bool
  | .mtimer _ (.time _) | .mtimer _ (.compare _) | .mtimer _ (.arm _ _) | .mtimer _ (.disarm _)
  | .mtimer _ (.isPending _) | .mtimer _ (.sync _) | .mtimerDriver _ (.bringUp _) => true
  | _ => false

namespace Machine

open Bench

theorem Twins.running {command : Command} (h : command.isTimed = true) :
    InStep Twins (run command) (run command) := by
  cases command with
  | mtimerDriver driver command =>
      cases command with
      | bringUp hart => exact (bringingUp driver hart).bind fun _ => .value _
      | _ => cases h
  | mtimer number command =>
      refine looking number fun device device' hplain hvalid => ?_
      have hconfig := Mtimer.Device.plain_config hplain
      cases command with
      | time hart => exact (timing hconfig hvalid).bind fun _ => .value _
      | compare hart =>
          dsimp only
          rw [Mtimer.Config.compare_eq, Mtimer.Config.compare_eq]
          exact (onOutside (Bench.Twins.comparing hconfig hvalid)).bind fun _ => .value _
      | arm hart deadline => exact (arming hconfig hvalid deadline).bind fun _ => .value _
      | disarm hart => exact (arming hconfig hvalid Mtimer.disarmed).bind fun _ => .value _
      | isPending hart =>
          dsimp only
          rw [Mtimer.Config.isPending_eq, Mtimer.Config.isPending_eq]
          exact (onOutside (Bench.Twins.pending hconfig hvalid)).bind fun _ => .value _
      | sync hart => exact (syncing number hart).bind fun _ => .value _
      | _ => cases h
  | _ => cases h

/-- What can be seen of a run of commands: how each of them ends, and the
memory that it leaves. -/
def observations (m : Machine) : List Command → List (Except Exit Answer × (UInt64 → UInt32))
  | [] => []
  | command :: commands =>
      ((step m command).1.outcome, (step m command).2.outside.bus.memory) ::
        observations (step m command).2 commands

theorem Twins.stepping {m m' : Machine} (h : Twins m m') {command : Command}
    (htimed : command.isTimed = true) :
    (step m command).1.outcome = (step m' command).1.outcome ∧
      Twins (step m command).2 (step m' command).2 := by
  have hoff : InStep Bench.Twins (modify fun b : Bench => { b with output := "" }) _ :=
    Bench.Twins.modifying (fun _ => rfl) (fun _ => rfl) (fun _ => rfl) fun _ => rfl
  have hbegun : Twins m.begun m'.begun :=
    ⟨h.dispatcher, h.history, (hoff m.outside m'.outside h.outside).2.tracing [] []⟩
  rw [step_eq, step_eq]
  cases hrun : run command m.begun with
  | ok answer after =>
      rcases (running htimed).of_ok hbegun hrun with ⟨after', hrun', hafter⟩
      rw [hrun']
      exact ⟨rfl, hafter⟩
  | error exit after =>
      rcases (running htimed).of_error hbegun hrun with ⟨after', hrun', hafter⟩
      rw [hrun']
      exact ⟨rfl, hafter⟩

theorem Twins.observations_eq {m m' : Machine} (h : Twins m m') {commands : List Command}
    (htimed : ∀ command ∈ commands, command.isTimed = true) :
    observations m commands = observations m' commands := by
  induction commands generalizing m m' with
  | nil => rfl
  | cons command commands ih =>
      rcases List.forall_mem_cons.mp htimed with ⟨hfirst, hrest⟩
      rcases h.stepping hfirst with ⟨houtcome, hafter⟩
      unfold observations
      rw [houtcome, hafter.outside.bus, ih hafter hrest]

/-- The machine with other widths of access: `supports` tells of which devices the registers
may be accessed whole. -/
def supporting (m : Machine) (supports : Nat → Bool) : Machine :=
  m.within { m.outside with
    mtimers := m.outside.mtimers.mapIdx fun number device =>
      { device with config := { device.config with supportsWhole := supports number } } }

theorem plain_supporting (m : Machine) (supports : Nat → Bool) :
    (m.supporting supports).outside.plain = m.outside.plain := by
  have hmap : (m.supporting supports).outside.mtimers.map (·.plain) =
      m.outside.mtimers.map (·.plain) := by
    apply List.ext_getElem?
    intro place
    change (List.map _ (List.mapIdx _ _))[place]? = _
    rw [List.getElem?_map, List.getElem?_mapIdx, List.getElem?_map, Option.map_map]
    rfl
  unfold Bench.plain
  rw [hmap]
  rfl

/-- No operation of a timer device distinguishes access to whole registers from access to
halves: each call ends alike and leaves the same memory. -/
theorem observations_supporting {m : Machine}
    (hvalid : ∀ device ∈ m.outside.mtimers, device.config.isValid = true)
    (hcounters : m.outside.bus.counters = [])
    (huntrapped : ∀ address, m.outside.script.atAddress address = [])
    (supports supports' : Nat → Bool) {commands : List Command}
    (htimed : ∀ command ∈ commands, command.isTimed = true) :
    observations (m.supporting supports) commands =
      observations (m.supporting supports') commands := by
  have htwins : Twins (m.supporting supports) (m.supporting supports') := by
    refine ⟨rfl, rfl, ⟨?_, ?_, hcounters, huntrapped⟩⟩
    · rw [plain_supporting, plain_supporting]
    · intro device hmem
      rcases List.mem_mapIdx.mp hmem with ⟨place, hplace, rfl⟩
      exact hvalid (m.outside.mtimers[place]) (List.getElem_mem hplace)
  exact htwins.observations_eq htimed

def tangledMachine : Machine :=
  { outside :=
    { mtimers :=
      [{ config :=
          { timeBase := 0x1000, timeSize := 8, compareBase := 0x2000, compareSize := 16
            frequency := 10000000, harts := ⟨0, 2⟩, supportsWhole := true, sharesTime := false
            windows := [⟨1, 0x1000⟩] }
         reference := some 1 },
       { config :=
          { timeBase := 0x2000, timeSize := 8, compareBase := 0x1000, compareSize := 16
            frequency := 10000000, harts := ⟨0, 2⟩, supportsWhole := false, sharesTime := false
            windows := [] } }]
      bus :=
        { memory := fun a => if a = 0x1000 then 20 else if a = 0x2004 then 1000 else 0 } } }

def tangledCommands : List Command :=
  [.mtimer 0 (.sync 0), .mtimer 1 (.arm 0 0x123456789abcdef), .mtimer 0 (.isPending 0),
    .mtimer 0 (.time 1)]

theorem observations_supporting_tangledMachine :
    observations (tangledMachine.supporting fun _ => true) tangledCommands =
        observations (tangledMachine.supporting fun _ => false) tangledCommands ∧
      (observations (tangledMachine.supporting fun _ => true) tangledCommands).map
          (·.2 0x1000) =
        [0, 0x89abcdef, 0x89abcdef, 0x89abcdef] := by
  constructor
  · apply observations_supporting
    · decide
    · rfl
    · exact fun _ => rfl
    · decide
  · rfl

end Machine
end Interhart
