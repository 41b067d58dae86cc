import Interhart.Proofs.Delay.Liveness
import Interhart.Proofs.InStep
import Interhart.Proofs.Machine.Staffing

/-!
# Which delays return

While a driver of timer devices is the timer, a delay for a hart goes by the device that the
driver has bound the hart to, and ends if the counter of this device is live.  A hart that is
bound to no device sees no time go by, so a delay for it never ends unless it is by no ticks.
-/

namespace Interhart

/-!
# Delays by the same clock
-/

section SameClock

variable {σ : Type} {invariant : σ → Prop} {read read' : EStateM Exit σ UInt64}

theorem InStep.of_keeps (hkeeps : Keeps invariant read)
    (hsame : ∀ s, invariant s → read s = read' s) :
    InStep (fun s s' => s = s' ∧ invariant s) read read' := by
  rintro s _ ⟨rfl, hs⟩
  rw [← hsame s hs]
  cases hrun : read s with
  | ok value t => exact ⟨rfl, rfl, hkeeps.of_ok hs hrun⟩
  | error exit t => exact ⟨rfl, rfl, hkeeps.of_error hs hrun⟩

theorem waitTicks_congr (hkeeps : Keeps invariant read)
    (hsame : ∀ s, invariant s → read s = read' s)
    {s : σ} (hs : invariant s) (ticks : UInt64) :
    waitTicks read ticks s = waitTicks read' ticks s := by
  have hread := InStep.of_keeps hkeeps hsame
  have hwait : InStep (fun s s' => s = s' ∧ invariant s) (waitTicks read ticks)
      (waitTicks read' ticks) :=
    hread.bind fun start => .polling (hread.bind fun now => .value _) patience
  cases hrun : waitTicks read ticks s with
  | ok value t =>
      rcases hwait.of_ok ⟨rfl, hs⟩ hrun with ⟨_, hrun', rfl, _⟩
      exact hrun'.symm
  | error exit t =>
      rcases hwait.of_error ⟨rfl, hs⟩ hrun with ⟨_, hrun', rfl, _⟩
      exact hrun'.symm

end SameClock

namespace Bench

variable {b : Bench} {driver : DriverId} {hart number : Nat}

/-!
# Harts that are bound
-/

theorem driverTime_of_bound {device : Mtimer.Device}
    (hbound : (b.mtimerDrivers driver).devices.get? hart = some number)
    (hdevice : b.mtimers[number]? = some device) :
    driverTime driver hart b = (device.config.time hart : BenchM UInt64) b := by
  unfold driverTime
  rw [bind_of_ok (mtimerServing_apply driver hart b), hbound]
  exact bind_of_ok (mtimer_of_some hdevice)

theorem waitTicks_of_bound {device : Mtimer.Device}
    (hbound : (b.mtimerDrivers driver).devices.get? hart = some number)
    (hdevice : b.mtimers[number]? = some device) (ticks : UInt64) :
    waitTicks (driverTime driver hart) ticks b =
      waitTicks (device.config.time hart : BenchM UInt64) ticks b := by
  have hkeeps : Keeps (Alike b) (driverTime driver hart) :=
    (Passive.readingDriver driver hart).keeping fun _ _ halike h => h.trans halike
  refine waitTicks_congr hkeeps ?_ (.refl b) ticks
  · rintro _ ⟨_, _, _, _, _, rfl⟩
    exact driverTime_of_bound hbound hdevice

theorem liveRegister_of_runs (address : UInt64) :
    LiveRegister (fun b : Bench => b.bus.Runs address) address fun b =>
      b.bus.peek64 address where
  whole _ hb := ⟨rfl, hb.tick (.inl rfl)⟩
  low b hb := by
    refine ⟨?_, hb.tick (.inl rfl)⟩
    dsimp only
    rw [show lowHalf (b.bus.peek64 address) = b.bus.peek address from lowHalf_joinHalves _ _]
    rfl
  high b hb := by
    refine ⟨?_, hb.tick (.inr rfl)⟩
    dsimp only
    rw [show highHalf (b.bus.peek64 address) = b.bus.peek (address + 4) from
      highHalf_joinHalves _ _]
    rfl

/-!
# Harts that are not
-/

theorem readings_of_free (hfree : (b.mtimerDrivers driver).devices.get? hart = none) :
    Readings (driverTime driver hart) (fun _ => b) fun _ => 0 where
  shown _ := by
    unfold driverTime
    rw [bind_of_ok (mtimerServing_apply driver hart b), hfree]
    rfl
  forward _ := Nat.le_refl 0

theorem exhausted_of_free (hfree : (b.mtimerDrivers driver).devices.get? hart = none)
    {ticks : UInt64} (hticks : ticks ≠ 0) (bound : Nat) :
    waitTicksWithin (driverTime driver hart) ticks bound b = .error .exhausted b := by
  apply (readings_of_free hfree).exhausted_of_early
  intro n _ _ henough
  exact hticks (UInt64.toNat_inj.mp (Nat.le_zero.mp henough))

theorem ok_of_free (hfree : (b.mtimerDrivers driver).devices.get? hart = none) :
    waitTicks (driverTime driver hart) 0 b = .ok () b :=
  ((readings_of_free hfree).endsAt_one (Nat.zero_le _)).ok patience (by decide)

/-- The counters of all devices that a driver has bound harts to run, as the harts see them. -/
def Running (driver : DriverId) (b : Bench) : Prop :=
  ∀ hart number device, (b.mtimerDrivers driver).devices.get? hart = some number →
    b.mtimers[number]? = some device → b.bus.Runs (device.config.timeRegister hart)

theorem ok_waitTicks_iff (hstaffed : Staffed driver b) (hrunning : b.Running driver)
    (hart : Nat) {ticks : UInt64} (hticks : ticks.toNat < 2 ^ 63) :
    (∃ b', waitTicks (driverTime driver hart) ticks b = .ok () b') ↔
      ticks = 0 ∨ (b.mtimerDrivers driver).devices.get? hart ≠ none := by
  cases hbound : (b.mtimerDrivers driver).devices.get? hart with
  | none =>
      constructor
      · rintro ⟨b', hrun⟩
        by_contra hnever
        have hexhausted := exhausted_of_free hbound (not_or.mp hnever).1 patience
        rw [← waitTicks_eq, hrun] at hexhausted
        cases hexhausted
      · rintro (rfl | hnone)
        · exact ⟨b, ok_of_free hbound⟩
        · exact absurd rfl hnone
  | some number =>
      rcases hstaffed.exists_device hbound with ⟨device, hdevice, hvalid, -⟩
      have haligned := Mtimer.Config.dvd_timeRegister hvalid hart
      have hlive := Mtimer.Config.liveClock_time haligned (liveRegister_of_runs _)
      rcases hlive.exists_ok_waitTicks (hrunning hart number device hbound hdevice) hticks with
        ⟨b', hrun, -⟩
      rw [waitTicks_of_bound hbound hdevice, hrun]
      exact ⟨fun _ => .inr nofun, fun _ => ⟨b', rfl⟩⟩

end Bench

namespace Machine

open Bench

variable {driver : DriverId} {start m : Machine} {accepted : List Nat}

/-- What delays come to while a driver that began without devices is the timer.  A delay for a
bound hart goes by the device of the hart, and ends wherever the counter of this device is
live, however unevenly it goes on and by whatever width it is read.  A delay for another hart
never ends, unless it is by no ticks. -/
theorem delay_returns_iff
    (hempty : ∀ hart, (start.outside.mtimerDrivers driver).devices.get? hart = none)
    (h : Bindings (.mtimer driver) start accepted m)
    (htimer : m.outside.timer = some (.mtimer driver)) :
    (∀ hart number, (m.outside.mtimerDrivers driver).devices.get? hart = some number →
      ∃ device, m.outside.mtimers[number]? = some device ∧ device.config.serves hart = true ∧
        (∀ ticks, delayTicks hart ticks m =
          Ipi.onOutside (waitTicks (device.config.time hart) ticks) m) ∧
        ∀ {σ : Type} [ReadsRegisters (EStateM Exit σ)] {good : σ → Prop} {shown : σ → UInt64},
          LiveRegister good (device.config.timeRegister hart) shown →
          ∀ s, good s → ∀ ticks : UInt64, ticks.toNat < 2 ^ 63 →
            ∃ t, waitTicks (device.config.time hart : EStateM Exit σ UInt64) ticks s =
              .ok () t) ∧
    (∀ hart, (m.outside.mtimerDrivers driver).devices.get? hart = none →
      ∀ ticks, ticks ≠ 0 → ∀ bound,
        waitTicksWithin (deviceTime (.mtimer driver) hart) ticks bound m.outside =
          .error .exhausted m.outside) ∧
    (m.outside.Running driver →
      (∀ hart ticks, ticks.toNat < 2 ^ 63 →
        ((∃ after, delayTicks hart ticks m = .ok () after) ↔
          ticks = 0 ∨ (m.outside.mtimerDrivers driver).devices.get? hart ≠ none)) ∧
      ∀ hart amount unit ticks,
        ticksOf (m.outside.mtimerDrivers driver).frequency amount unit = ticks →
        ticks.toNat < 2 ^ 63 →
        ((∃ after, delay hart amount unit m = .ok () after) ↔
          ticks = 0 ∨ (m.outside.mtimerDrivers driver).devices.get? hart ≠ none)) := by
  have hstaffed := h.staffed hempty
  refine ⟨fun hart number hbound => ?_, fun hart hfree ticks hticks bound => ?_,
    fun hrunning => ?_⟩
  · rcases hstaffed.exists_device hbound with ⟨device, hdevice, hvalid, hserves⟩
    refine ⟨device, hdevice, hserves, fun ticks => ?_, fun hlive s hs ticks hticks => ?_⟩
    · rw [delayTicks_of_timer htimer]
      exact onOutside_congr (waitTicks_of_bound hbound hdevice ticks)
    · have haligned := Mtimer.Config.dvd_timeRegister hvalid hart
      rcases (Mtimer.Config.liveClock_time haligned hlive).exists_ok_waitTicks hs hticks with
        ⟨t, hrun, -⟩
      exact ⟨t, hrun⟩
  · exact exhausted_of_free hfree hticks bound
  · have hwait (hart : Nat) (ticks : UInt64) (hticks : ticks.toNat < 2 ^ 63) :
        (∃ after, Ipi.onOutside (waitTicks (deviceTime (.mtimer driver) hart) ticks) m =
            .ok () after) ↔
          ticks = 0 ∨ (m.outside.mtimerDrivers driver).devices.get? hart ≠ none := by
      rw [← ok_waitTicks_iff hstaffed hrunning hart hticks]
      constructor
      · rintro ⟨after, hrun⟩
        rcases Ipi.ok_of_onOutside hrun with ⟨outside, hwaited, -⟩
        exact ⟨outside, hwaited⟩
      · rintro ⟨outside, hwaited⟩
        exact ⟨m.within outside, Ipi.onOutside_of_ok hwaited⟩
    constructor
    · intro hart ticks hticks
      rw [delayTicks_of_timer htimer]
      exact hwait hart ticks hticks
    · rintro hart amount unit _ rfl hticks
      rw [delay_of_timer htimer]
      exact hwait hart _ hticks

def loneTimer : Machine :=
  { outside :=
    { mtimers := [{ config := ⟨0x1000, 8, 0x2000, 8, 1000000, ⟨0, 1⟩, false, false, []⟩ }]
      bus := { counters := [⟨0x1000, 0xfffffffffffffff0, 3⟩] } } }

def timedMachine : Machine := finalState (Binding.mtimer boardDriver 0 none).run loneTimer

theorem bindings_timedMachine : Bindings (.mtimer 0) loneTimer [0] timedMachine :=
  .accepted .begin rfl (ok_of_succeeds (by decide +kernel :
    succeeds (Binding.mtimer 0 0 none).run loneTimer = true))

theorem running_timedMachine : timedMachine.outside.Running 0 := by
  have hdevices : timedMachine.outside.mtimers = loneTimer.outside.mtimers := by decide +kernel
  have hcounters : timedMachine.outside.bus.counters = loneTimer.outside.bus.counters := by
    decide +kernel
  intro hart number device hbound hdevice
  rw [hdevices] at hdevice
  cases number with
  | zero =>
      cases hdevice
      refine ⟨⟨0x1000, 0xfffffffffffffff0, 3⟩, ?_, rfl, by decide, by decide⟩
      rw [hcounters]
      rfl
  | succ number => cases hdevice

theorem delay_returns_timedMachine :
    (∃ after, delayTicks 0 1000 timedMachine = .ok () after) ∧
      (∃ after, delay 0 50 .microseconds timedMachine = .ok () after) ∧
      ∃ device, timedMachine.outside.mtimers[0]? = some device ∧
        ∃ b, waitTicks (device.config.time 0 : BenchM UInt64) 1000 timedMachine.outside =
          .ok () b := by
  rcases delay_returns_iff (fun _ => rfl) bindings_timedMachine (by decide +kernel) with
    ⟨hserved, -, hlive⟩
  have hbound : (timedMachine.outside.mtimerDrivers 0).devices.get? 0 = some 0 := by
    decide +kernel
  have hsome : (timedMachine.outside.mtimerDrivers 0).devices.get? 0 ≠ none := by
    rw [hbound]
    nofun
  rcases hlive running_timedMachine with ⟨hticks, hamount⟩
  refine ⟨(hticks 0 1000 (by decide)).mpr (.inr hsome),
    (hamount 0 50 .microseconds 50 (by decide +kernel) (by decide)).mpr (.inr hsome), ?_⟩
  rcases hserved 0 0 hbound with ⟨device, hdevice, -, -, hends⟩
  exact ⟨device, hdevice, hends (liveRegister_of_runs _) timedMachine.outside
    (running_timedMachine 0 0 device hbound hdevice) 1000 (by decide)⟩

/-- A delay by one tick for a hart that the device does not serve, while the counter runs. -/
theorem delay_hangs_timedMachine :
    Bindings (.mtimer 0) loneTimer [0] timedMachine ∧
      timedMachine.outside.timer = some (.mtimer 0) ∧ timedMachine.outside.Running 0 ∧
      ∀ bound, waitTicksWithin (deviceTime (.mtimer 0) 5) 1 bound timedMachine.outside =
        .error .exhausted timedMachine.outside :=
  ⟨bindings_timedMachine, by decide +kernel, running_timedMachine,
    exhausted_of_free (by decide +kernel) (by decide)⟩

end Machine
end Interhart
