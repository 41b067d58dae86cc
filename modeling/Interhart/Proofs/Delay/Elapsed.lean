import Interhart.Machine.Command
import Interhart.Proofs.Delay.Readings

/-!
# How long a delay takes

A delay by ticks is never too short, and on a clock that goes on by small steps it is too long
by less than a step.  A delay by microseconds or milliseconds is told in whole ticks, rounded
down, so it may be too short by a part of a tick, and by any number of ticks if they are more
than a word holds.
-/

namespace Interhart

namespace Readings

/-- Each reading is later than the one before it, by a step at most. -/
def Paced (time : Nat → Nat) (step : Nat) : Prop :=
  ∀ n, time n < time (n + 1) ∧ time (n + 1) ≤ time n + step

variable {time : Nat → Nat} {step : Nat}

theorem Paced.add_le (h : Paced time step) (n : Nat) : time 0 + n ≤ time n := by
  induction n with
  | zero => exact Nat.le_refl _
  | succ n ih =>
      have hnext := (h n).1
      omega

theorem Paced.exists_first (h : Paced time step) (count : Nat) :
    ∃ last, 1 ≤ last ∧ time 0 + count ≤ time last ∧
      (∀ n, 1 ≤ n → n < last → time n < time 0 + count) ∧
      last ≤ max count 1 ∧ time last < time 0 + max count 1 + step := by
  have hsteps := h.add_le (max count 1)
  have hlate : ∃ n, 1 ≤ n ∧ time 0 + count ≤ time n := ⟨max count 1, by omega, by omega⟩
  rcases Nat.find_spec hlate with ⟨hpos, hreached⟩
  have hfirst : Nat.find hlate ≤ max count 1 := Nat.find_min' hlate ⟨by omega, by omega⟩
  have hearly (n : Nat) (hn : 1 ≤ n) (hlt : n < Nat.find hlate) : time n < time 0 + count := by
    by_contra hle
    exact Nat.find_min hlate hlt ⟨hn, Nat.not_lt.mp hle⟩
  generalize Nat.find hlate = last at hpos hreached hfirst hearly
  refine ⟨last, hpos, hreached, hearly, hfirst, ?_⟩
  -- the reading before it is either the one at the start or still too early
  obtain ⟨before, rfl⟩ := Nat.exists_eq_add_of_le' hpos
  have hstep := (h before).2
  by_cases hbefore : before = 0
  · subst hbefore
    omega
  · have hbehind := hearly before (by omega) (by omega)
    omega

variable {σ : Type} {read : EStateM Exit σ UInt64} {s : Nat → σ} {ticks : UInt64}

theorem exists_endsAt_of_paced (h : Readings read s time) (hpaced : Paced time step)
    (hroom : ticks.toNat + step ≤ UInt64.size) :
    ∃ last, EndsAt read ticks s last ∧ last ≤ max ticks.toNat 1 ∧
      time last < time 0 + max ticks.toNat 1 + step := by
  rcases hpaced.exists_first ticks.toNat with ⟨last, hpos, hreached, hearly, hfirst, hbound⟩
  refine ⟨last, h.endsAt hpos ?_ fun n hn hlt henough => ?_, hfirst, hbound⟩
  · unfold Enough
    by_cases hzero : ticks.toNat = 0
    · omega
    · rw [Nat.mod_eq_of_lt (by omega)]
      omega
  · have htime := h.add_le_of_enough henough
    have hbehind := hearly n hn hlt
    omega

end Readings

/-!
# Delays on a machine
-/

namespace Machine

open Bench

variable {m : Machine} {device : TimerDevice}

theorem delayTicks_of_timer (htimer : m.outside.timer = some device) (hart : Nat)
    (ticks : UInt64) :
    delayTicks hart ticks m = Ipi.onOutside (waitTicks (deviceTime device hart) ticks) m := by
  unfold delayTicks withTimer
  rw [get_bind, htimer]

theorem delay_of_timer (htimer : m.outside.timer = some device) (hart : Nat) (amount : UInt64)
    (unit : TimeUnit) :
    delay hart amount unit m =
      Ipi.onOutside (waitTicks (deviceTime device hart)
        (ticksOf (deviceFrequency m.outside device) amount unit)) m := by
  have hfrequency : timerFrequency m.outside =
      .ok (deviceFrequency m.outside device) m.outside := by
    unfold timerFrequency
    rw [get_bind, htimer]
    rfl
  unfold delay
  rw [bind_of_ok (Ipi.onOutside_of_ok hfrequency)]
  exact delayTicks_of_timer htimer hart _

end Machine

/-!
# Scripted clocks
-/

def clockMachine (clock : Clock) : Machine :=
  { outside := { clocks := [clock], timer := some (.clock 0) } }

namespace Bench

def afterReadings (b : Bench) (number count : Nat) : Bench :=
  { b with clocks := b.clocks.modify number fun c =>
      { c with now := c.now + UInt64.ofNat count * c.step, reads := c.reads + count } }

theorem readings_clock {b : Bench} {number : Nat} {clock : Clock}
    (h : b.clocks[number]? = some clock) (hart : Nat) :
    Readings (deviceTime (.clock number) hart) (b.afterReadings number)
      fun n => clock.now.toNat + n * clock.step.toNat where
  shown := fun n => by
    have hnow : ((b.afterReadings number n).clocks[number]?.map (·.now)).getD 0 =
        UInt64.ofNat (clock.now.toNat + n * clock.step.toNat) := by
      rw [afterReadings, List.getElem?_modify, h, UInt64.ofNat_add, UInt64.ofNat_mul,
        UInt64.ofNat_toNat, UInt64.ofNat_toNat]
      simp
    have hnext : (b.afterReadings number n).clocks.modify number
        (fun c => { c with now := c.now + c.step, reads := c.reads + 1 }) =
        (b.afterReadings number (n + 1)).clocks := by
      unfold afterReadings
      rw [List.modify_modify_eq]
      congr 1
      funext c
      have hsteps : UInt64.ofNat (n + 1) * c.step = UInt64.ofNat n * c.step + c.step := by
        rw [UInt64.ofNat_add, UInt64.add_mul, show UInt64.ofNat 1 = 1 from rfl, UInt64.one_mul]
      simp only [Function.comp_apply, hsteps, UInt64.add_assoc, Nat.add_assoc]
    show EStateM.Result.ok _ { b with clocks := _ } = _
    rw [hnow, hnext]
    rfl
  forward := fun n => by
    rw [Nat.succ_mul]
    omega

theorem readings_clockMachine (clock : Clock) :
    Readings (deviceTime (.clock 0) 0) ((clockMachine clock).outside.afterReadings 0)
      fun n => clock.now.toNat + n * clock.step.toNat :=
  readings_clock rfl 0

theorem paced_clock {step : Nat} (hpos : 0 < step) (now : Nat) :
    Readings.Paced (fun n => now + n * step) step := by
  intro n
  show now + n * step < now + (n + 1) * step ∧ now + (n + 1) * step ≤ now + n * step + step
  rw [Nat.succ_mul]
  omega

end Bench

/-!
# Delays by ticks
-/

namespace Readings

open Bench

variable {σ : Type} {read : EStateM Exit σ UInt64} {s : Nat → σ} {time : Nat → Nat}

/-- A delay that ends has taken its ticks in true time, also if the clock rolled over
meanwhile; it ends on a clock that goes on by a step at most from each reading to the next, and
goes beyond its ticks by less than a step.  A delay by no ticks takes a whole step, as it reads
the clock twice. -/
theorem elapsed_within_step (h : Readings read s time) (ticks : UInt64) :
    (∀ (m : Machine) (device : TimerDevice) (hart : Nat), m.outside.timer = some device →
      Machine.delayTicks hart ticks m =
        Ipi.onOutside (waitTicks (deviceTime device hart) ticks) m) ∧
    (∀ bound t, waitTicksWithin read ticks bound (s 0) = .ok () t →
      ∃ last, EndsAt read ticks s last ∧ t = s (last + 1) ∧
        time 0 + ticks.toNat ≤ time last) ∧
    (∀ step, Paced time step → ticks.toNat + step ≤ UInt64.size →
      ∃ last, EndsAt read ticks s last ∧ waitTicks read ticks (s 0) = .ok () (s (last + 1)) ∧
        last + 1 ≤ ticks.toNat + 2 ∧ time 0 + ticks.toNat ≤ time last ∧
        time last < time 0 + max ticks.toNat 1 + step) := by
  refine ⟨fun m device hart htimer => Machine.delayTicks_of_timer htimer hart ticks,
    fun bound t hrun => ?_, fun step hpaced hroom => ?_⟩
  · rcases h.exists_endsAt_of_ok hrun with ⟨last, hends, -, hstate, -⟩
    exact ⟨last, hends, hstate, h.add_le_of_endsAt hends⟩
  · rcases h.exists_endsAt_of_paced hpaced hroom with ⟨last, hends, hfirst, hbound⟩
    have hpatience : last ≤ patience := by
      have hticks := ticks.toNat_lt_size
      unfold patience
      omega
    exact ⟨last, hends, hends.ok patience hpatience, by omega, h.add_le_of_endsAt hends, hbound⟩

theorem elapsed_across_rollover :
    Machine.delayTicks 0 10 (clockMachine ⟨1000000, 18446744073709551613, 2, 0⟩) =
      .ok () (clockMachine ⟨1000000, 9, 2, 6⟩) := by
  have hreadings := readings_clockMachine ⟨1000000, 18446744073709551613, 2, 0⟩
  rcases hreadings.elapsed_within_step 10 with ⟨hmachine, -, hreturns⟩
  rcases hreturns 2 (paced_clock (by decide) _) (by decide) with ⟨last, -, hrun, -,
    hleast, hmost⟩
  obtain rfl : last = 5 := by
    rw [show UInt64.toNat 10 = 10 from rfl] at hleast hmost
    rw [show UInt64.toNat 2 = 2 from rfl] at hleast hmost
    omega
  rw [hmachine (clockMachine _) (.clock 0) 0 rfl, Ipi.onOutside_of_ok hrun]
  rfl

/-- A delay by no ticks takes a tick on a clock that goes on by one tick each time. -/
theorem zero_ticks_take_a_step :
    ∃ time : Nat → Nat,
      Readings (deviceTime (.clock 0) 0)
        ((clockMachine ⟨1000000, 0, 1, 0⟩).outside.afterReadings 0) time ∧ Paced time 1 ∧
      EndsAt (deviceTime (.clock 0) 0) 0
        ((clockMachine ⟨1000000, 0, 1, 0⟩).outside.afterReadings 0) 1 ∧
      Machine.delayTicks 0 0 (clockMachine ⟨1000000, 0, 1, 0⟩) =
        .ok () (clockMachine ⟨1000000, 2, 1, 2⟩) ∧
      ¬time 1 < time 0 + (0 : UInt64).toNat + 1 := by
  have hclock := readings_clockMachine ⟨1000000, 0, 1, 0⟩
  have hends : EndsAt _ 0 _ 1 := hclock.endsAt_one (by decide)
  refine ⟨_, hclock, paced_clock (by decide) _, hends, ?_, by decide⟩
  rw [Machine.delayTicks_of_timer rfl, waitTicks_eq]
  exact Ipi.onOutside_of_ok (hends.ok patience (by decide))

end Readings

/-!
# Delays by amounts of time
-/

/-- No delay by an amount of time is too short, whatever the clock does: the ticks that have
gone by when it ends last as long as the amount at least. -/
def NeverShort (frequency amount : UInt64) (unit : TimeUnit) : Prop :=
  ∀ {σ : Type} {read : EStateM Exit σ UInt64} {s : Nat → σ} {time : Nat → Nat},
    Readings read s time → ∀ last, EndsAt read (ticksOf frequency amount unit) s last →
      frequency.toNat * amount.toNat ≤ (time last - time 0) * unit.perSecond

theorem toNat_ticksOf (frequency amount : UInt64) (unit : TimeUnit) :
    (ticksOf frequency amount unit).toNat =
      min (frequency.toNat * amount.toNat / unit.perSecond) (UInt64.size - 1) := by
  unfold ticksOf
  exact UInt64.toNat_ofNat_of_lt (Nat.lt_of_le_of_lt (Nat.min_le_right _ _) (by decide))

theorem TimeUnit.perSecond_pos (unit : TimeUnit) : 0 < unit.perSecond := by
  cases unit <;> decide

theorem le_ticksOf_iff (frequency amount : UInt64) (unit : TimeUnit) :
    frequency.toNat * amount.toNat ≤ (ticksOf frequency amount unit).toNat * unit.perSecond ↔
      unit.perSecond ∣ frequency.toNat * amount.toNat ∧
        frequency.toNat * amount.toNat / unit.perSecond < UInt64.size := by
  rw [toNat_ticksOf]
  generalize frequency.toNat * amount.toNat = total
  have hsplit := Nat.div_add_mod' total unit.perSecond
  constructor
  · intro hle
    have hwhole := Nat.mul_le_mul_right unit.perSecond
      (Nat.min_le_left (total / unit.perSecond) (UInt64.size - 1))
    have hfits : total / unit.perSecond ≤
        min (total / unit.perSecond) (UInt64.size - 1) :=
      Nat.le_of_mul_le_mul_right (by omega) unit.perSecond_pos
    have hsize : 0 < UInt64.size := by decide
    exact ⟨Nat.dvd_of_mod_eq_zero (by omega), by omega⟩
  · rintro ⟨hdvd, hfits⟩
    rw [Nat.min_eq_left (Nat.le_sub_one_of_lt hfits), Nat.div_mul_cancel hdvd]

def stridingClock (ticks : UInt64) : EStateM Exit Nat UInt64 := fun count =>
  .ok (UInt64.ofNat (count * ticks.toNat)) (count + 1)

theorem readings_stridingClock (ticks : UInt64) :
    Readings (stridingClock ticks) id (· * ticks.toNat) where
  shown _ := rfl
  forward n := Nat.mul_le_mul_right _ (Nat.le_succ n)

theorem endsAt_stridingClock (ticks : UInt64) : EndsAt (stridingClock ticks) ticks id 1 := by
  refine (readings_stridingClock ticks).endsAt_one ?_
  show ticks.toNat ≤ (1 * ticks.toNat - 0 * ticks.toNat) % UInt64.size
  rw [Nat.zero_mul, Nat.one_mul, Nat.sub_zero, Nat.mod_eq_of_lt ticks.toNat_lt_size]

/-- A delay by an amount of time is too short by less than a tick, unless a word does not hold
its ticks.  It is never too short exactly where they are a whole number that a word holds. -/
theorem neverShort_iff (frequency amount : UInt64) (unit : TimeUnit) :
    (∀ (m : Machine) (device : TimerDevice) (hart : Nat), m.outside.timer = some device →
      m.outside.deviceFrequency device = frequency →
      Machine.delay hart amount unit m =
        Ipi.onOutside (waitTicks (Bench.deviceTime device hart) (ticksOf frequency amount unit))
          m) ∧
    (∀ {σ : Type} {read : EStateM Exit σ UInt64} {s : Nat → σ} {time : Nat → Nat},
      Readings read s time → ∀ last, EndsAt read (ticksOf frequency amount unit) s last →
        frequency.toNat * amount.toNat / unit.perSecond < UInt64.size →
        frequency.toNat * amount.toNat < (time last - time 0 + 1) * unit.perSecond) ∧
    (NeverShort frequency amount unit ↔
      unit.perSecond ∣ frequency.toNat * amount.toNat ∧
        frequency.toNat * amount.toNat / unit.perSecond < UInt64.size) := by
  refine ⟨?_, ?_, ?_⟩
  · rintro m device hart htimer rfl
    exact Machine.delay_of_timer htimer hart amount unit
  · intro σ read s time h last hends hfits
    have helapsed := h.add_le_of_endsAt hends
    rw [toNat_ticksOf, Nat.min_eq_left (Nat.le_sub_one_of_lt hfits)] at helapsed
    calc frequency.toNat * amount.toNat
        < (frequency.toNat * amount.toNat / unit.perSecond + 1) * unit.perSecond :=
          Nat.lt_mul_of_div_lt (Nat.lt_succ_self _) unit.perSecond_pos
      _ ≤ (time last - time 0 + 1) * unit.perSecond :=
          Nat.mul_le_mul_right _ (by omega)
  · rw [← le_ticksOf_iff]
    constructor
    · intro hnever
      have hlong := hnever (readings_stridingClock _) 1 (endsAt_stridingClock _)
      rwa [Nat.zero_mul, Nat.one_mul, Nat.sub_zero] at hlong
    · intro hticks σ read s time h last hends
      have helapsed := h.add_le_of_endsAt hends
      exact Nat.le_trans hticks (Nat.mul_le_mul_right _ (by omega))

theorem neverShort_cases :
    NeverShort 1000000 50 .microseconds ∧ ¬NeverShort 32768 61 .microseconds ∧
      Machine.delay 0 50 .microseconds (clockMachine ⟨1000000, 0, 50, 0⟩) =
        .ok () (clockMachine ⟨1000000, 100, 50, 2⟩) := by
  rcases neverShort_iff 1000000 50 .microseconds with ⟨hmachine, -, hexact⟩
  refine ⟨hexact.mpr (by decide), fun hnever => ?_, ?_⟩
  · exact absurd ((neverShort_iff 32768 61 .microseconds).2.2.mp hnever) (by decide)
  · have hclock := Bench.readings_clockMachine ⟨1000000, 0, 50, 0⟩
    have hends : EndsAt _ (ticksOf 1000000 50 .microseconds) _ 1 :=
      hclock.endsAt_one (by decide)
    rw [hmachine (clockMachine _) (.clock 0) 0 rfl rfl, waitTicks_eq]
    exact Ipi.onOutside_of_ok (hends.ok patience (by decide))

/-- A delay of 61 microseconds on a watch crystal ends after a single tick, half as long. -/
theorem delay_ends_early :
    ∃ time : Nat → Nat,
      Readings (Bench.deviceTime (.clock 0) 0)
        ((clockMachine ⟨32768, 0, 1, 0⟩).outside.afterReadings 0) time ∧
      EndsAt (Bench.deviceTime (.clock 0) 0) (ticksOf 32768 61 .microseconds)
        ((clockMachine ⟨32768, 0, 1, 0⟩).outside.afterReadings 0) 1 ∧
      Machine.delay 0 61 .microseconds (clockMachine ⟨32768, 0, 1, 0⟩) =
        .ok () (clockMachine ⟨32768, 2, 1, 2⟩) ∧
      ¬(61 * 32768 ≤ (time 1 - time 0) * 1000000) := by
  have hclock := Bench.readings_clockMachine ⟨32768, 0, 1, 0⟩
  have hends : EndsAt _ (ticksOf 32768 61 .microseconds) _ 1 := hclock.endsAt_one (by decide)
  refine ⟨_, hclock, hends, ?_, by decide⟩
  rw [Machine.delay_of_timer rfl, waitTicks_eq]
  exact Ipi.onOutside_of_ok (hends.ok patience (by decide))

end Interhart
