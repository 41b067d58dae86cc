import Interhart.Proofs.Delay.Elapsed
import Interhart.Proofs.Registers.Live
import Mathlib.Logic.Function.Iterate
import Mathlib.Tactic.Choose

/-!
# Delays on live clocks

What a clock shows goes on from one reading to the next, by how much may change every time.  If
it is never by much, the steps add up to a true time of which each reading shows as much as a
word holds, so a delay by the clock ends.
-/

namespace Interhart

/-!
# True time
-/

def trueTime (value : Nat → UInt64) : Nat → Nat
  | 0 => (value 0).toNat
  | n + 1 => trueTime value n + (value (n + 1) - value n).toNat

theorem ofNat_trueTime (value : Nat → UInt64) (n : Nat) :
    UInt64.ofNat (trueTime value n) = value n := by
  induction n with
  | zero => exact UInt64.ofNat_toNat
  | succ n ih =>
      rw [trueTime, UInt64.ofNat_add, ih, UInt64.ofNat_toNat]
      grind

theorem readings_trueTime {σ : Type} {read : EStateM Exit σ UInt64} {s : Nat → σ}
    {value : Nat → UInt64} (h : ∀ n, read (s n) = .ok (value n) (s (n + 1))) :
    Readings read s (trueTime value) where
  shown n := by
    rw [ofNat_trueTime]
    exact h n
  forward n := Nat.le_add_right _ _

theorem paced_trueTime {value : Nat → UInt64} {step : Nat}
    (h : ∀ n, GoesOn step (value n) (value (n + 1))) :
    Readings.Paced (trueTime value) step := by
  intro n
  rcases h n with ⟨hpos, hlt⟩
  exact ⟨Nat.lt_add_of_pos_right hpos, Nat.add_le_add_left (Nat.le_of_lt hlt) _⟩

/-!
# Live clocks
-/

/-- A clock that shows a register.  What is read was shown when the reading had begun, or not
much later, and the register has gone on since. -/
def LiveClock {σ : Type} (good : σ → Prop) (shown : σ → UInt64) (read : EStateM Exit σ UInt64) :
    Prop :=
  ∀ s, good s → ∃ value t, read s = .ok value t ∧ good t ∧ (value - shown s).toNat < 2 ^ 31 ∧
    GoesOn (2 ^ 30) value (shown t)

namespace LiveClock

variable {σ : Type} {good : σ → Prop} {shown : σ → UInt64} {read : EStateM Exit σ UInt64}

theorem exists_readings (h : LiveClock good shown read) {start : σ} (hstart : good start) :
    ∃ s time, s 0 = start ∧ (∀ n, good (s n)) ∧ Readings read s time ∧
      Readings.Paced time (2 ^ 32) := by
  have hgood (n : Nat) : good ((finalState read)^[n] start) := by
    induction n with
    | zero => exact hstart
    | succ n ih =>
        rcases h _ ih with ⟨value, t, hread, ht, -⟩
        rw [Function.iterate_succ_apply', finalState, hread]
        exact ht
  have hstep (n : Nat) : ∃ value,
      read ((finalState read)^[n] start) = .ok value ((finalState read)^[n + 1] start) ∧
      (value - shown ((finalState read)^[n] start)).toNat < 2 ^ 31 ∧
      GoesOn (2 ^ 30) value (shown ((finalState read)^[n + 1] start)) := by
    rcases h _ (hgood n) with ⟨value, t, hread, -, hnear, hon⟩
    rw [Function.iterate_succ_apply', finalState, hread]
    exact ⟨value, rfl, hnear, hon⟩
  choose value hread hnear hon using hstep
  refine ⟨_, _, rfl, hgood, readings_trueTime hread, paced_trueTime fun n => ?_⟩
  exact ((hon n).further (hnear (n + 1)) (by decide)).mono (by decide)

theorem exists_ok_waitTicks (h : LiveClock good shown read) {start : σ} (hstart : good start)
    {ticks : UInt64} (hticks : ticks.toNat < 2 ^ 63) :
    ∃ t, waitTicks read ticks start = .ok () t ∧ good t := by
  rcases h.exists_readings hstart with ⟨s, time, rfl, hgood, hreadings, hpaced⟩
  have hroom : ticks.toNat + 2 ^ 32 ≤ UInt64.size := by
    unfold UInt64.size
    omega
  rcases hreadings.exists_endsAt_of_paced hpaced hroom with ⟨last, hends, hfirst, -⟩
  refine ⟨s (last + 1), hends.ok patience ?_, hgood _⟩
  simp only [patience, UInt64.size]
  omega

end LiveClock

theorem Mtimer.Config.liveClock_time {σ : Type} [ReadsRegisters (EStateM Exit σ)]
    {good : σ → Prop} {shown : σ → UInt64} {config : Mtimer.Config} {hart : Nat}
    (haligned : 8 ∣ (config.timeRegister hart).toNat)
    (h : LiveRegister good (config.timeRegister hart) shown) :
    LiveClock good shown (config.time hart) :=
  fun _ hs => h.read haligned config.access hs

end Interhart
