import Interhart.Machine.Command
import Interhart.Proofs.Machine.Alignment

/-!
# What time a hart sees

A device is aligned once, for the copy of its counter that serves the first hart to come up.
The harts that this copy serves see the time of the reference from then on.  The other copies
stay as they are, and so does the time that their harts see.
-/

namespace Interhart

namespace Mtimer.Config

theorem add_halves (value : UInt64) : value / 2 + value / 2 + value % 2 = value := by
  apply UInt64.toNat_inj.mp
  have hlt := value.toNat_lt
  rw [UInt64.toNat_add, UInt64.toNat_add, UInt64.toNat_div, UInt64.toNat_mod,
    show (2 : UInt64).toNat = 2 from rfl]
  omega

theorem add_difference (own there : UInt64) :
    own + difference own there own = there + own % 2 := by
  have hhalves := add_halves own
  unfold difference
  grind

/-- The counters that serve the harts are neither compare registers nor counters of the
reference, and its counters are no compare registers either. -/
structure Apart (config followed : Config) : Prop where
  counters : ∀ hart other, config.timeRegister hart ≠ followed.timeRegister other
  compares : ∀ hart address, config.compareRegister? hart = some address →
    ∀ other, config.timeRegister other ≠ address ∧ followed.timeRegister other ≠ address

/-- What a hart sees on a counter that has been aligned for the first hart. -/
def moved (config : Config) (own there : Nat → UInt64) (first hart : Nat) : UInt64 :=
  if config.timeRegister hart = config.timeRegister first then there first + own first % 2
  else own hart

end Mtimer.Config

namespace Bus

structure Like (bus bus' : Bus) : Prop where
  memory : bus'.memory = bus.memory
  places : bus'.counters.map (·.address) = bus.counters.map (·.address)

namespace Like

variable {bus bus' : Bus} {address : UInt64}

theorem hasCounter_iff (bus : Bus) (address : UInt64) :
    bus.HasCounter address ↔
      ∃ place ∈ bus.counters.map (·.address), address = place ∨ address = place + 4 := by
  have hhalf (counter : Counter) : counter.half? address ≠ none ↔
      address = counter.address ∨ address = counter.address + 4 := by
    unfold Counter.half?
    split
    · simp [*]
    · split
      · simp [*]
      · simp [*]
  simp only [HasCounter, hhalf, List.mem_map, exists_exists_and_eq_and]

theorem still_iff (h : Like bus bus') : bus'.Still address ↔ bus.Still address := by
  unfold Still
  rw [hasCounter_iff, hasCounter_iff, hasCounter_iff, hasCounter_iff, h.places]

theorem peek64 (h : Like bus bus') (hstill : bus.Still address) :
    bus'.peek64 address = bus.peek64 address := by
  rw [peek64_of_still hstill, peek64_of_still (h.still_iff.mpr hstill), h.memory]

theorem tick (bus : Bus) (address : UInt64) : Like bus (bus.tick address) := by
  have hplace (counter : Counter) : (counter.tick address).address = counter.address := by
    unfold Counter.tick
    split
    · rfl
    · rfl
  refine ⟨rfl, ?_⟩
  unfold Bus.tick
  rw [List.map_map]
  exact List.map_congr_left fun counter _ => hplace counter

theorem trans {bus'' : Bus} (h : Like bus bus') (h' : Like bus' bus'') : Like bus bus'' :=
  ⟨h'.memory.trans h.memory, h'.places.trans h.places⟩

end Like
end Bus

namespace Bench

theorem observed_like (bus : Bus) : Observed fun b => Bus.Like bus b.bus where
  ticking address h := h.trans (.tick _ address)
  writing _ _ _ h := h

/-- A device with a counter of its own, its reference, and the times that the harts see on
either of them.  All counters and compare registers lie in memory, and no hart is interrupted
by a write to the registers of the device. -/
structure Clocked (number place : Nat) (config followed : Mtimer.Config) (aligned : Bool)
    (own there : Nat → UInt64) (b : Bench) : Prop where
  device : ∃ device, b.mtimers[number]? = some device ∧ device.config = config ∧
    device.reference = some place ∧ device.aligned = aligned
  reference : ∃ device, b.mtimers[place]? = some device ∧ device.config = followed
  counters : ∀ hart, b.bus.Still (config.timeRegister hart) ∧
    b.bus.Still (followed.timeRegister hart)
  compares : ∀ hart address, config.compareRegister? hart = some address → b.bus.Still address
  untrapped : config.Untrapped b
  own : ∀ hart, b.bus.peek64 (config.timeRegister hart) = own hart
  there : ∀ hart, b.bus.peek64 (followed.timeRegister hart) = there hart

namespace Clocked

variable {number place hart : Nat} {config followed : Mtimer.Config} {aligned : Bool}
  {own there : Nat → UInt64} {b b' : Bench} {m after : Machine}

theorem like (h : Clocked number place config followed aligned own there b)
    (hbus : Bus.Like b.bus b'.bus) (hmtimers : b'.mtimers = b.mtimers)
    (hscript : b'.script.atAddress = b.script.atAddress) :
    Clocked number place config followed aligned own there b' := by
  refine ⟨?_, ?_, ?_, ?_, ?_, ?_, ?_⟩
  · rw [hmtimers]
    exact h.device
  · rw [hmtimers]
    exact h.reference
  · intro hart
    rw [hbus.still_iff, hbus.still_iff]
    exact h.counters hart
  · intro hart address haddress
    rw [hbus.still_iff]
    exact h.compares hart address haddress
  · unfold Mtimer.Config.Untrapped Untrapped
    rw [hscript]
    exact h.untrapped
  · intro hart
    rw [hbus.peek64 (h.counters hart).1]
    exact h.own hart
  · intro hart
    rw [hbus.peek64 (h.counters hart).2]
    exact h.there hart

theorem setting (h : Clocked number place config followed aligned own there b)
    {register : UInt64} (hregister : b.bus.Still register) (haligned : 8 ∣ register.toNat)
    (hvalid : config.isValid = true) (hfollowed : followed.isValid = true)
    (hapart : ∀ hart, followed.timeRegister hart ≠ register) (value : UInt64) :
    Clocked number place config followed aligned
      (fun hart => if config.timeRegister hart = register then value else own hart) there
      { b with bus := b.bus.setRegister register value } := by
  refine ⟨h.device, h.reference, h.counters, h.compares, h.untrapped, ?_, ?_⟩
  · intro hart
    by_cases hsame : config.timeRegister hart = register
    · rw [if_pos hsame, hsame]
      exact Bus.peek64_setRegister_self hregister value
    · rw [if_neg hsame]
      exact (Bus.peek64_setRegister_of_ne (h.counters hart).1 haligned
        (Mtimer.Config.dvd_timeRegister hvalid hart) hsame value).trans (h.own hart)
  · intro hart
    exact (Bus.peek64_setRegister_of_ne (h.counters hart).2 haligned
      (Mtimer.Config.dvd_timeRegister hfollowed hart) (hapart hart) value).trans (h.there hart)

theorem arming (h : Clocked number place config followed aligned own there m.outside)
    (hvalid : config.isValid = true) (hfollowed : followed.isValid = true)
    (hapart : config.Apart followed) {deadline : UInt64}
    (hrun : (config.arm hart deadline : MachineM Unit) m = .ok () after) :
    Clocked number place config followed aligned own there after.outside := by
  rw [Mtimer.Config.arm_of_untrapped hvalid (h.untrapped hart).2] at hrun
  cases hrun
  rw [Ipi.System.outside_within]
  unfold Mtimer.Config.armed
  cases hregister : config.compareRegister? hart with
  | none => exact h
  | some register =>
      have hclear := hapart.compares hart register hregister
      have hset := h.setting (h.compares hart register hregister)
        (Mtimer.Config.dvd_compareRegister hvalid hregister) hvalid hfollowed
        (fun other => (hclear other).2) deadline
      simp only [(hclear _).1, ↓reduceIte] at hset
      refine hset.like ?_ rfl rfl
      change Bus.Like _ (m.outside.bus.store _ _ _ _)
      rw [Bus.store_of_still (h.compares hart register hregister)]
      exact ⟨rfl, rfl⟩

theorem sampling (h : Clocked number place config followed aligned own there b)
    (hvalid : config.isValid = true) (hfollowed : followed.isValid = true) {delta last : UInt64}
    {sampled : Bench} (hsampled : config.Sampled followed hart b delta last sampled) :
    last + delta = there hart + own hart % 2 ∧ ∃ trace, sampled =
      { b with trace := trace } := by
  have hshows {shown : Mtimer.Config} (hshown : shown.isValid = true)
      (hstill : b.bus.Still (shown.timeRegister hart)) {trace : List Entry} {value : UInt64}
      {b' : Bench} (hread : shown.Shows hart { b with trace := trace } value b') :
      value = b.bus.peek64 (shown.timeRegister hart) ∧ ∃ trace, b' = { b with trace :=
        trace } := by
    have hsame := hread.symm.trans (read_of_still shown.access
      (Mtimer.Config.dvd_timeRegister hshown hart) hstill)
    cases hsame
    exact ⟨rfl, _, rfl⟩
  rcases h.counters hart with ⟨hown, hthere⟩
  rcases hsampled with ⟨_, _, _, _, _, _, hbefore, hreading, hafter, hlast, rfl⟩
  rcases hshows hvalid hown hbefore with ⟨rfl, trace₁, rfl⟩
  rcases hshows hfollowed hthere hreading with ⟨rfl, trace₂, rfl⟩
  rcases hshows hvalid hown hafter with ⟨rfl, trace₃, rfl⟩
  rcases hshows hvalid hown hlast with ⟨rfl, trace₄, rfl⟩
  refine ⟨?_, trace₄, rfl⟩
  rw [Mtimer.Config.add_difference]
  exact congrArg₂ (fun there own => there + own % 2) (h.there hart) (h.own hart)

theorem marking (h : Clocked number place config followed aligned own there b) {aligned' : Bool}
    (change : Mtimer.Device → Mtimer.Device)
    (hchange : ∀ d, (change d).config = d.config ∧ (change d).reference = d.reference)
    (haligned : ∀ d, d.aligned = aligned → (change d).aligned = aligned') :
    Clocked number place config followed aligned' own there
      { b with mtimers := b.mtimers.modify number change } := by
  rcases h.device with ⟨device, hdevice, hconfig, hreference, hflag⟩
  rcases h.reference with ⟨leader, hleader, hleaderConfig⟩
  refine ⟨⟨change device, ?_, (hchange device).1.trans hconfig,
    (hchange device).2.trans hreference, haligned device hflag⟩, ?_, h.counters, h.compares,
    h.untrapped, h.own, h.there⟩
  · change (b.mtimers.modify number change)[number]? = _
    rw [List.getElem?_modify_eq, hdevice]
    rfl
  · rcases exists_getElem?_modify number change (fun d => (hchange d).1) hleader with
      ⟨changed, hchanged, hsame⟩
    exact ⟨changed, hchanged, hsame.trans hleaderConfig⟩

theorem syncing (h : Clocked number place config followed false own there m.outside)
    (hvalid : config.isValid = true) (hfollowed : followed.isValid = true)
    (hown : config.sharesTime = false) (hapart : config.Apart followed) {answer : Bool}
    (hrun : Machine.sync number hart m = .ok answer after) :
    Clocked number place config followed true (config.moved own there hart) there
      after.outside := by
  rcases h.device with ⟨device, hdevice, hconfig, hreference, haligned⟩
  rcases h.reference with ⟨leader, hleader, hleaderConfig⟩
  have hdue : device.IsDue := by
    refine ⟨?_, ?_, haligned⟩
    · rw [hreference]
      exact Option.some_ne_none place
    · rw [hconfig]
      exact hown
  rcases Machine.ok_of_sync hdevice hdue hrun with ⟨_, reference, found, delta, last, sampled,
    written, outside, hsame, hfound, hsampled, hset, hlog, rfl⟩
  have hplace : reference = place := Option.some.inj (hsame.symm.trans hreference)
  rw [hplace] at hfound
  have hfoundConfig := (config_eq_of_beginning hleader hfound).trans hleaderConfig
  rw [hconfig, hfoundConfig] at hsampled
  rw [hconfig] at hset
  have hbegun : Clocked number place config followed true own there
      (m.outside.beginning number) :=
    h.marking _ (fun _ => ⟨rfl, rfl⟩) fun _ _ => rfl
  rcases hbegun.sampling hvalid hfollowed hsampled with ⟨hvalue, trace, rfl⟩
  have hregister := Mtimer.Config.dvd_timeRegister hvalid hart
  have hmoved := hbegun.setting (hbegun.counters hart).1 hregister hvalid hfollowed
    (fun other => (hapart.counters hart other).symm) (last + delta)
  rw [hvalue] at hmoved hset
  have huntrapped :
      (m.within { m.outside.beginning number with trace := trace }).outside.Untrapped
      (config.timeRegister hart) := (h.untrapped hart).1
  rw [Mtimer.Config.setTime_of_untrapped hvalid huntrapped] at hset
  cases hset
  have hstored : Clocked number place config followed true (config.moved own there hart) there
      (({ m.outside.beginning number with trace := trace } : Bench).storing config.access
        Mtimer.parkedTime (config.timeRegister hart) (there hart + own hart % 2)) := by
    refine hmoved.like ?_ rfl rfl
    change Bus.Like _ ((m.outside.beginning number).bus.store _ _ _ _)
    rw [Bus.store_of_still (hbegun.counters hart).1]
    exact ⟨rfl, rfl⟩
  have hadjusted : Clocked number place config followed true (config.moved own there hart) there
      (Bench.adjusting _ number delta) := hstored.marking _ (fun _ => ⟨rfl, rfl⟩) fun _ h => h
  have halike : Alike _ outside := (Passive.logging _ _).of_ok (.refl _) hlog
  have hbus := ((observed_like _).logging _).of_ok ⟨rfl, rfl⟩ hlog
  refine hadjusted.like hbus ?_ ?_
  · rcases halike with ⟨_, _, _, _, _, rfl⟩
    rfl
  · rcases halike with ⟨_, _, _, _, _, rfl⟩
    rfl

theorem bringingUp (h : Clocked number place config followed aligned own there m.outside)
    (hvalid : config.isValid = true) (hfollowed : followed.isValid = true)
    (hown : config.sharesTime = false) (hapart : config.Apart followed) {driver : DriverId}
    (hbound : (m.outside.mtimerDrivers driver).devices.get? hart = some number)
    (hrun : Machine.driverBringUpTimer driver hart m = .ok () after) :
    Clocked number place config followed true
      (if aligned = true then own else config.moved own there hart) there after.outside := by
  rcases Machine.ok_of_driverBringUpTimer hbound hrun with
    ⟨answer, between, device, hsync, hdevice, hdisarm⟩
  have hbetween : Clocked number place config followed true
      (if aligned = true then own else config.moved own there hart) there between.outside := by
    cases aligned with
    | false => exact h.syncing hvalid hfollowed hown hapart hsync
    | true =>
        rcases h.device with ⟨present, hpresent, _, _, haligned⟩
        have hidle : ¬present.IsDue := by
          intro hdue
          rw [hdue.2.2] at haligned
          cases haligned
        rw [Machine.sync_of_idle hpresent hidle] at hsync
        cases hsync
        exact h
  rcases hbetween.device with ⟨present, hpresent, hconfig, _⟩
  have hsame : device = present := Option.some.inj (hdevice.symm.trans hpresent)
  rw [hsame, hconfig] at hdisarm
  exact hbetween.arming hvalid hfollowed hapart hdisarm

theorem outcome_time {device : Mtimer.Device}
    (hdevice : m.outside.mtimers[number]? = some device) (hvalid : device.config.isValid = true)
    (hstill : m.outside.bus.Still (device.config.timeRegister hart)) :
    (Machine.step m (.mtimer number (.time hart))).1.outcome =
      .ok (.word (m.outside.bus.peek64 (device.config.timeRegister hart))) := by
  have hread : (device.config.time hart : BenchM UInt64) m.begun.outside = _ :=
    read_of_still device.config.access (Mtimer.Config.dvd_timeRegister hvalid hart) hstill
  have htime := Ipi.onOutside_of_ok hread
  rw [← Mtimer.Config.time_eq] at htime
  have hbegun : m.begun.outside.mtimers[number]? = some device := hdevice
  have hrun : Machine.run (.mtimer number (.time hart)) m.begun = _ :=
    (bind_of_ok (Ipi.onOutside_of_ok (mtimer_of_some hbegun))).trans (bind_of_ok htime)
  rw [Machine.step_eq, hrun]
  rfl

end Clocked
end Bench

/-!
# Harts that come up
-/

/-- Harts that are bound to a device have come up one after the other, the latest
first.  Between them anything may happen that leaves the clocks of the device and
of its reference alone. -/
inductive Arrivals (number place : Nat) (config followed : Mtimer.Config) (start : Machine) :
    List Nat → Machine → Prop
  | begin : Arrivals number place config followed start [] start
  | broughtUp {harts : List Nat} {m after : Machine} {driver : DriverId} {hart : Nat}
      (h : Arrivals number place config followed start harts m)
      (hbound : (m.outside.mtimerDrivers driver).devices.get? hart = some number)
      (hrun : Machine.driverBringUpTimer driver hart m = .ok () after) :
      Arrivals number place config followed start (hart :: harts) after
  | elsewhere {harts : List Nat} {m after : Machine}
      (h : Arrivals number place config followed start harts m)
      (hclocks : ∀ aligned own there,
        Bench.Clocked number place config followed aligned own there m.outside →
          Bench.Clocked number place config followed aligned own there after.outside) :
      Arrivals number place config followed start harts after

/-- A clock that shows the time of another one, or is one ahead of it. -/
def Near (seen shown : UInt64) : Prop := seen = shown ∨ seen = shown + 1

theorem near_add_mod_two (shown own : UInt64) : Near (shown + own % 2) shown := by
  have hparity : own % 2 = 0 ∨ own % 2 = 1 := by
    rcases Nat.mod_two_eq_zero_or_one own.toNat with hzero | hone
    · exact .inl (UInt64.toNat_inj.mp hzero)
    · exact .inr (UInt64.toNat_inj.mp hone)
  rcases hparity with hzero | hone
  · rw [hzero]
    exact .inl (UInt64.add_zero shown)
  · rw [hone]
    exact .inr rfl

namespace Arrivals

open Bench

variable {number place : Nat} {config followed : Mtimer.Config} {start m : Machine}
  {harts : List Nat} {aligned : Bool} {own there : Nat → UInt64}

/-- The first hart to come up decides which copy of the counter is moved, if any. -/
theorem clocked (h : Arrivals number place config followed start harts m)
    (hvalid : config.isValid = true) (hfollowed : followed.isValid = true)
    (hown : config.sharesTime = false) (hapart : config.Apart followed)
    (hstart : Clocked number place config followed aligned own there start.outside) :
    match harts.getLast? with
    | none => Clocked number place config followed aligned own there m.outside
    | some first => Clocked number place config followed true
        (if aligned = true then own else config.moved own there first) there m.outside := by
  induction h with
  | begin => exact hstart
  | @broughtUp harts m after driver hart h hbound hrun ih =>
      rw [List.getLast?_cons]
      cases hfirst : harts.getLast? with
      | none =>
          rw [hfirst] at ih
          exact ih.bringingUp hvalid hfollowed hown hapart hbound hrun
      | some first =>
          rw [hfirst] at ih
          exact ih.bringingUp hvalid hfollowed hown hapart hbound hrun
  | @elsewhere harts m after h hclocks ih =>
      cases hfirst : harts.getLast? with
      | none =>
          rw [hfirst] at ih
          exact hclocks _ _ _ ih
      | some first =>
          rw [hfirst] at ih
          exact hclocks _ _ _ ih

/-- When harts have come up, a hart sees the time of the reference, or one tick more, exactly
if it shares the copy of the counter that has been aligned for the first of them, as far as the
reference shows both of them the same, or if its own copy had this time to begin with. -/
theorem near_iff (h : Arrivals number place config followed start harts m)
    (hvalid : config.isValid = true) (hfollowed : followed.isValid = true)
    (hown : config.sharesTime = false) (hapart : config.Apart followed)
    (hstart : Clocked number place config followed aligned own there start.outside)
    {first : Nat}
    (hfirst : harts.getLast? = some first) (hart : Nat) :
    ∃ seen shown, (Machine.step m (.mtimer number (.time hart))).1.outcome = .ok (.word seen) ∧
      (Machine.step m (.mtimer place (.time hart))).1.outcome = .ok (.word shown) ∧
      (Near seen shown ↔
        if aligned = false ∧ config.timeRegister hart = config.timeRegister first then
          Near (there first + own first % 2) (there hart)
        else Near (own hart) (there hart)) := by
  have hclocked := h.clocked hvalid hfollowed hown hapart hstart
  rw [hfirst] at hclocked
  rcases hclocked.device with ⟨device, hdevice, rfl, _⟩
  rcases hclocked.reference with ⟨leader, hleader, rfl⟩
  refine ⟨_, _, Clocked.outcome_time hdevice hvalid (hclocked.counters hart).1,
    Clocked.outcome_time hleader hfollowed (hclocked.counters hart).2, ?_⟩
  rw [hclocked.own, hclocked.there]
  cases aligned with
  | true => simp
  | false =>
      unfold Mtimer.Config.moved
      by_cases hcopy : device.config.timeRegister hart = device.config.timeRegister first
      · simp [hcopy]
      · simp [hcopy]

def leadConfig : Mtimer.Config where
  timeBase := 0x1000
  timeSize := 8
  compareBase := 0x2000
  compareSize := 16
  frequency := 10000000
  harts := ⟨2, 2⟩
  supportsWhole := true
  sharesTime := false
  windows := []

def splitConfig : Mtimer.Config :=
  { leadConfig with
    timeBase := 0x3000, compareBase := 0x4000, harts := ⟨0, 2⟩, windows := [⟨1, 0x10000⟩] }

def splitMachine (driver : DriverId) : Machine :=
  { outside :=
    { mtimers := [{ config := leadConfig }, { config := splitConfig, reference := some 0 }]
      mtimerDrivers := fun _ =>
        { devices := (HartTable.empty.assign leadConfig.harts 0).assign splitConfig.harts 1
          frequency := 10000000 }
      timer := some (.mtimer driver)
      bus := { memory := fun a =>
        if a = 0x1000 then 1000 else if a = 0x3000 then 20
        else if a = 0x13000 then 500 else 0 } } }

def arrivedMachine (driver : DriverId) : Machine :=
  finalState (Machine.driverBringUpTimer driver 1)
    (finalState (Machine.driverBringUpTimer driver 0) (splitMachine driver))

theorem arrivals_arrivedMachine :
    Arrivals 1 0 splitConfig leadConfig (splitMachine 0) [1, 0] (arrivedMachine 0) := by
  have hfirst := ok_of_succeeds (by decide +kernel :
    succeeds (Machine.driverBringUpTimer 0 0) (splitMachine 0) = true)
  have hsecond := ok_of_succeeds (by decide +kernel :
    succeeds (Machine.driverBringUpTimer 0 1)
      (finalState (Machine.driverBringUpTimer 0 0) (splitMachine 0)) = true)
  exact (Arrivals.begin.broughtUp rfl hfirst).broughtUp rfl hsecond

theorem timeRegister_splitConfig (hart : Nat) :
    splitConfig.timeRegister hart = if 1 ≤ hart then 0x13000 else 0x3000 := by
  unfold Mtimer.Config.timeRegister DieWindow.locate
  by_cases hsecond : 1 ≤ hart
  · simp [splitConfig, hsecond]
    rfl
  · simp [splitConfig, hsecond]
    rfl

theorem timeRegister_leadConfig (hart : Nat) : leadConfig.timeRegister hart = 0x1000 := by
  rfl

theorem apart_splitConfig : splitConfig.Apart leadConfig := by
  constructor
  · intro hart other
    rw [timeRegister_splitConfig, timeRegister_leadConfig]
    split
    · decide
    · decide
  · intro hart address hregister other
    have hserved : hart = 0 ∨ hart = 1 := by
      have hserves := Mtimer.Config.serves_of_compareRegister? hregister
      have hrange := HartRange.contains_iff.mp hserves
      change 0 ≤ hart ∧ hart < 0 + 2 at hrange
      omega
    rw [timeRegister_splitConfig, timeRegister_leadConfig]
    rcases hserved with rfl | rfl
    · cases hregister
      split
      · decide
      · decide
    · cases hregister
      split
      · decide
      · decide

theorem clocked_splitMachine : Clocked 1 0 splitConfig leadConfig false
    (fun hart => if 1 ≤ hart then 500 else 20) (fun _ => 1000) (splitMachine 0).outside := by
  have hstill := Bus.still_of_no_counters (rfl : (splitMachine 0).outside.bus.counters = [])
  refine ⟨⟨_, rfl, rfl, rfl, rfl⟩, ⟨_, rfl, rfl⟩, fun _ => ⟨hstill _, hstill _⟩,
    fun _ _ _ => hstill _, fun _ => ⟨⟨rfl, rfl⟩, fun _ _ => ⟨rfl, rfl⟩⟩, ?_, ?_⟩
  · intro hart
    rw [timeRegister_splitConfig]
    split
    · rfl
    · rfl
  · intro hart
    rw [timeRegister_leadConfig]
    rfl

/-- The hart of the copy that has not been aligned is half-way behind. -/
theorem not_near_arrivedMachine :
    Arrivals 1 0 splitConfig leadConfig (splitMachine 0) [1, 0] (arrivedMachine 0) ∧
      splitConfig.isValid = true ∧ leadConfig.isValid = true ∧ splitConfig.sharesTime = false ∧
      splitConfig.Apart leadConfig ∧
      Clocked 1 0 splitConfig leadConfig false (fun hart => if 1 ≤ hart then 500 else 20)
        (fun _ => 1000) (splitMachine 0).outside ∧
      (Machine.step (arrivedMachine 0) (.mtimer 1 (.time 1))).1.outcome = .ok (.word 500) ∧
      (Machine.step (arrivedMachine 0) (.mtimer 0 (.time 1))).1.outcome = .ok (.word 1000) ∧
      ¬Near 500 1000 := by
  refine ⟨arrivals_arrivedMachine, by decide, by decide, rfl, apart_splitConfig,
    clocked_splitMachine, rfl, rfl, ?_⟩
  unfold Near
  decide

theorem near_iff_arrivedMachine :
    ∃ seen shown,
      (Machine.step (arrivedMachine 0) (.mtimer 1 (.time 0))).1.outcome = .ok (.word seen) ∧
      (Machine.step (arrivedMachine 0) (.mtimer 0 (.time 0))).1.outcome = .ok (.word shown) ∧
      Near seen shown := by
  rcases near_iff arrivals_arrivedMachine (by decide) (by decide) rfl apart_splitConfig
    clocked_splitMachine rfl 0 with ⟨seen, shown, hseen, hshown, hnear⟩
  refine ⟨seen, shown, hseen, hshown, hnear.mpr ?_⟩
  rw [if_pos ⟨rfl, rfl⟩]
  exact near_add_mod_two _ _

end Arrivals
end Interhart
