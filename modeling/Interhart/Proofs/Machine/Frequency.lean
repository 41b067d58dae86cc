import Interhart.Machine.Timer
import Interhart.Proofs.Machine.DriverTable
import Interhart.Proofs.Machine.Enrolling

/-!
# The frequency of a timer driver

A driver goes by the frequency of the first device it has taken on that counts at all.  Whether
that is the frequency of the device which serves a hart depends on nothing else: a device that
follows no other one may count at any frequency.
-/

namespace Interhart
namespace Bench

def frequency? (b : Bench) (number : Nat) : Option UInt64 :=
  (b.mtimers.map (·.config))[number]?.map (·.frequency)

/-- The device that gives a driver its frequency, of those that it has taken
on, the latest first. -/
def leader? (b : Bench) (numbers : List Nat) : Option Nat :=
  numbers.reverse.find? fun number => (b.frequency? number).any (· ≠ 0)

def leadingFrequency (b : Bench) (numbers : List Nat) : UInt64 :=
  ((b.leader? numbers).bind b.frequency?).getD 0

variable {b b' : Bench} {numbers : List Nat} {number : Nat}

theorem frequency?_of_getElem? {device : Mtimer.Device} (h : b.mtimers[number]? = some device) :
    b.frequency? number = some device.config.frequency := by
  rw [frequency?, List.getElem?_map, h]
  rfl

theorem frequency?_congr (h : b'.mtimers.map (·.config) = b.mtimers.map (·.config)) :
    b'.frequency? = b.frequency? := by
  funext number
  rw [frequency?, h, frequency?]

theorem leadingFrequency_congr (h : b'.mtimers.map (·.config) = b.mtimers.map (·.config)) :
    b'.leadingFrequency numbers = b.leadingFrequency numbers := by
  unfold leadingFrequency leader?
  rw [frequency?_congr h]

theorem leader?_cons (b : Bench) (number : Nat) (numbers : List Nat) :
    b.leader? (number :: numbers) = (b.leader? numbers).or (b.leader? [number]) := by
  rw [leader?, List.reverse_cons, List.find?_append]
  rfl

theorem frequency?_of_leader? {leader : Nat} (h : b.leader? numbers = some leader) :
    ∃ frequency, b.frequency? leader = some frequency ∧ frequency ≠ 0 := by
  have hany := List.find?_some h
  cases hfrequency : b.frequency? leader with
  | none =>
      rw [hfrequency] at hany
      cases hany
  | some frequency =>
      rw [hfrequency] at hany
      exact ⟨frequency, rfl, of_decide_eq_true hany⟩

theorem frequency?_of_leader?_eq_none (h : b.leader? numbers = none) (hmem : number ∈ numbers)
    {frequency : UInt64} (hfrequency : b.frequency? number = some frequency) :
    frequency = 0 := by
  have hany := List.find?_eq_none.mp h number (List.mem_reverse.mpr hmem)
  rw [hfrequency] at hany
  by_contra hne
  exact hany (decide_eq_true hne)

theorem leadingFrequency_cons {frequency : UInt64} (h : b.frequency? number = some frequency) :
    b.leadingFrequency (number :: numbers) =
      if b.leadingFrequency numbers = 0 then frequency else b.leadingFrequency numbers := by
  unfold leadingFrequency
  rw [leader?_cons]
  cases hleader : b.leader? numbers with
  | some leader =>
      rcases frequency?_of_leader? hleader with ⟨found, hfound, hne⟩
      rw [Option.some_or, Option.bind_some, hfound]
      exact (if_neg hne).symm
  | none =>
      change ((b.leader? [number]).bind b.frequency?).getD 0 = frequency
      unfold leader?
      by_cases hzero : frequency = 0
      · simp [h, hzero]
      · simp [h, hzero]

end Bench

/-- Calls by which a driver has taken devices on, with whatever goes on between them: it leaves
the driver alone, and the descriptions of the devices.  The list tells which devices the driver
has taken on, the latest first. -/
inductive Enrolments (driver : DriverId) (start : Machine) : List Nat → Machine → Prop
  | begin : Enrolments driver start [] start
  | taken {numbers : List Nat} {m after : Machine} {number : Nat} {reference : Option Nat}
      (h : Enrolments driver start numbers m)
      (hrun : (Binding.mtimer driver number reference).run m = .ok () after) :
      Enrolments driver start (number :: numbers) after
  | elsewhere {numbers : List Nat} {m after : Machine} (h : Enrolments driver start numbers m)
      (hconfigs : after.outside.mtimers.map (·.config) = m.outside.mtimers.map (·.config))
      (hdriver : after.outside.mtimerDrivers driver = m.outside.mtimerDrivers driver) :
      Enrolments driver start numbers after

namespace Enrolments

open Bench

variable {driver : DriverId} {start m : Machine} {numbers : List Nat}

theorem led (h : Enrolments driver start numbers m)
    (hfresh : start.outside.mtimerDrivers driver = {}) :
    (m.outside.mtimerDrivers driver).frequency = m.outside.leadingFrequency numbers ∧
      ∀ hart number, (m.outside.mtimerDrivers driver).devices.get? hart = some number →
        number ∈ numbers := by
  induction h with
  | begin =>
      rw [hfresh]
      exact ⟨rfl, nofun⟩
  | @taken numbers m after number reference h hrun ih =>
      rcases ih with ⟨hfrequency, hmem⟩
      have hbound := (Binding.contract_run _ _).of_ok rfl hrun
      rcases Ipi.ok_of_onOutside hrun with ⟨outside, hbind, rfl⟩
      rcases ok_of_bindMtimer hbind with ⟨device, henrolled⟩
      have hnumber := frequency?_of_getElem? henrolled.found
      constructor
      · rw [leadingFrequency_congr hbound.devices.mtimers, leadingFrequency_cons hnumber,
          ← hfrequency]
        rcases henrolled.left with ⟨domain, _, _, _, _, _, rfl⟩
        change ((m.outside.enrolling _ _ _ _ _).mtimerDrivers driver).frequency = _
        rw [mtimerDrivers_enrolling_self]
      · intro hart found hfound
        rcases hbound.get?_iff.mp hfound with ⟨rfl, _⟩ | hold
        · exact List.mem_cons_self
        · exact List.mem_cons_of_mem _ (hmem hart found hold)
  | elsewhere h hconfigs hdriver ih =>
      rw [hdriver, leadingFrequency_congr hconfigs]
      exact ih

/-- The frequency of a driver that began without devices fits a hart exactly if the device that
serves the hart counts as fast as the leader does.  While the driver is the timer, that is the
frequency by which delays are told in ticks of this device. -/
theorem frequency_eq_iff (h : Enrolments driver start numbers m)
    (hfresh : start.outside.mtimerDrivers driver = {}) {hart number : Nat}
    {device : Mtimer.Device}
    (hbound : (m.outside.mtimerDrivers driver).devices.get? hart = some number)
    (hdevice : m.outside.mtimers[number]? = some device) :
    ((m.outside.mtimerDrivers driver).frequency = device.config.frequency ↔
      ∀ leader, m.outside.leader? numbers = some leader →
        m.outside.frequency? leader = some device.config.frequency) ∧
    (m.outside.timer = some (.mtimer driver) →
      timerValue hart m.outside = (device.config.time hart : BenchM UInt64) m.outside ∧
      ∀ amount unit, Machine.delay hart amount unit m =
        Machine.delayTicks hart
          (ticksOf (m.outside.mtimerDrivers driver).frequency amount unit) m) := by
  rcases h.led hfresh with ⟨hfrequency, hmem⟩
  constructor
  · rw [hfrequency, leadingFrequency]
    cases hleader : m.outside.leader? numbers with
    | some leader =>
        rcases frequency?_of_leader? hleader with ⟨frequency, hfound, _⟩
        simp [hfound]
    | none =>
        have hzero := frequency?_of_leader?_eq_none hleader (hmem hart number hbound)
          (frequency?_of_getElem? hdevice)
        simp [hzero]
  · intro htimer
    constructor
    · unfold timerValue
      rw [Interhart.get_bind, htimer]
      change driverTime driver hart m.outside = _
      unfold driverTime
      rw [bind_of_ok (mtimerServing_apply driver hart m.outside), hbound]
      exact bind_of_ok (mtimer_of_some hdevice)
    · intro amount unit
      have hknown : timerFrequency m.outside =
          .ok (m.outside.mtimerDrivers driver).frequency m.outside := by
        unfold timerFrequency
        rw [Interhart.get_bind, htimer]
        rfl
      unfold Machine.delay
      exact bind_of_ok (Ipi.onOutside_of_ok hknown)

def unevenMachine : Machine :=
  { outside :=
    { mtimers :=
        [{ config := ⟨0x1000, 8, 0x2000, 16, 1000000, ⟨0, 2⟩, true, false, []⟩ },
          { config := ⟨0x3000, 8, 0x4000, 16, 2000000, ⟨2, 2⟩, true, false, []⟩ }]
      bus := { counters := [⟨0x3000, 100, 1⟩] } } }

def enrolledPair : Machine :=
  finalState (Binding.mtimer Machine.boardDriver 1 none).run
    (finalState (Binding.mtimer Machine.boardDriver 0 none).run unevenMachine)

theorem enrolments_enrolledPair : Enrolments 0 unevenMachine [1, 0] enrolledPair := by
  have hfirst : Enrolments 0 unevenMachine [0] _ :=
    taken begin (ok_of_succeeds (by decide +kernel :
      succeeds (Binding.mtimer 0 0 none).run unevenMachine = true))
  exact taken hfirst (ok_of_succeeds (by decide +kernel :
    succeeds (Binding.mtimer 0 1 none).run _ = true))

/-- Hart 2 waits for three microseconds as if its counter were the slow one: three
ticks take four readings. -/
theorem frequency_ne_enrolledPair :
    Enrolments 0 unevenMachine [1, 0] enrolledPair ∧
      (enrolledPair.outside.mtimerDrivers 0).devices.get? 2 = some 1 ∧
      enrolledPair.outside.frequency? 1 = some 2000000 ∧
      (enrolledPair.outside.mtimerDrivers 0).frequency = 1000000 ∧
      (Machine.step enrolledPair (.timer (.delay 2 3 .microseconds))).1.trace.length = 4 ∧
      ticksOf 2000000 3 .microseconds = 6 :=
  ⟨enrolments_enrolledPair, by decide +kernel, by decide +kernel, by decide +kernel,
    by decide +kernel, by decide +kernel⟩

theorem frequency_eq_iff_enrolledPair :
    ∃ device, enrolledPair.outside.mtimers[0]? = some device ∧
      (enrolledPair.outside.mtimerDrivers 0).frequency = device.config.frequency := by
  have hbound : (enrolledPair.outside.mtimerDrivers 0).devices.get? 0 =
      some 0 := by decide +kernel
  have hpresent : (enrolledPair.outside.mtimers[0]?).isSome = true := by decide +kernel
  rcases Option.isSome_iff_exists.mp hpresent with ⟨device, hdevice⟩
  refine ⟨device, hdevice, ?_⟩
  apply (frequency_eq_iff enrolments_enrolledPair rfl hbound hdevice).1.mpr
  have hfirst : enrolledPair.outside.leader? [1, 0] = some 0 := by decide +kernel
  intro leader hleader
  cases hfirst.symm.trans hleader
  exact frequency?_of_getElem? hdevice

end Enrolments
end Interhart
