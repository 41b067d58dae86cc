import Interhart.Proofs.Machine.Alignment

/-!
# How well a device is aligned

The counter of a device is set beyond the sample of its reference, by what it has gone on since
the mean of its first two samples.  This mean is made of their halves, so it lies between them
unless the counter has rolled over from one to the other.  Then it lies on the far side of the
range.
-/

namespace Interhart

namespace Mtimer.Samples

/-- By how much the own counter is set beyond the sample of the reference. -/
def excess (samples : Samples) : Nat := (samples.written - samples.there).toNat

/-- The ticks of the own counter from its first sample to its second, and from there to its
third.  All together they are less than a half of the register can count. -/
structure Spread (samples : Samples) (early late : Nat) : Prop where
  after : samples.after = samples.before + UInt64.ofNat early
  last : samples.last = samples.after + UInt64.ofNat late
  brief : early + late < 2 ^ 32

theorem excess_eq (samples : Samples) :
    samples.excess = (2 ^ 64 - (samples.before.toNat / 2 + samples.after.toNat / 2) +
      samples.last.toNat) % 2 ^ 64 := by
  have hmoved : samples.written - samples.there =
      samples.last - (samples.before / 2 + samples.after / 2) := by
    unfold written delta Config.difference
    grind
  have hmean : (samples.before / 2 + samples.after / 2).toNat =
      samples.before.toNat / 2 + samples.after.toNat / 2 := by
    have hbefore := samples.before.toNat_lt
    have hafter := samples.after.toNat_lt
    rw [UInt64.toNat_add, UInt64.toNat_div, UInt64.toNat_div,
      show (2 : UInt64).toNat = 2 from rfl]
    omega
  rw [excess, hmoved, UInt64.toNat_sub, hmean]

variable {samples : Samples} {early late : Nat}

theorem Spread.toNat_after (h : samples.Spread early late) :
    samples.after.toNat = (samples.before.toNat + early) % 2 ^ 64 := by
  have hbrief := h.brief
  rw [h.after, UInt64.toNat_add, UInt64.toNat_ofNat', Nat.mod_eq_of_lt (a := early) (by omega)]

theorem Spread.toNat_last (h : samples.Spread early late) :
    samples.last.toNat = (samples.after.toNat + late) % 2 ^ 64 := by
  have hbrief := h.brief
  rw [h.last, UInt64.toNat_add, UInt64.toNat_ofNat', Nat.mod_eq_of_lt (a := late) (by omega)]

theorem Spread.excess_le (h : samples.Spread early late)
    (horder : samples.before ≤ samples.after) : samples.excess ≤ early + late + 1 := by
  have hbefore := samples.before.toNat_lt
  have hafter := h.toNat_after
  have hlast := h.toNat_last
  have hbrief := h.brief
  rw [UInt64.le_iff_toNat_le] at horder
  rw [excess_eq]
  omega

theorem Spread.excess_of_lt (h : samples.Spread early late)
    (hrolled : samples.after < samples.before) :
    2 ^ 63 ≤ samples.excess ∧ samples.excess ≤ 2 ^ 63 + early + late + 1 := by
  have hbefore := samples.before.toNat_lt
  have hafter := h.toNat_after
  have hlast := h.toNat_last
  have hbrief := h.brief
  rw [UInt64.lt_iff_toNat_lt] at hrolled
  rw [excess_eq]
  omega

theorem Spread.excess_le_iff (h : samples.Spread early late) :
    samples.excess ≤ early + late + 1 ↔ samples.before ≤ samples.after := by
  constructor
  · intro hnear
    by_contra hrolled
    have hfar := (h.excess_of_lt (UInt64.not_le.mp hrolled)).1
    have hbrief := h.brief
    omega
  · exact h.excess_le

end Mtimer.Samples

namespace Mtimer.Config

section Anywhere

variable {σ : Type} [ReadsRegisters (EStateM Exit σ)] [WritesRegisters (EStateM Exit σ)]

theorem AlignedBy.samples_eq {config reference : Config} {hart : Nat} {samples other : Samples}
    {start finish finish' : σ} (h : config.AlignedBy reference hart samples start finish)
    (h' : config.AlignedBy reference hart other start finish') : samples = other := by
  rcases samples with ⟨before, there, after, last⟩
  rcases other with ⟨before', there', after', last'⟩
  rcases h with ⟨_, _, _, _, hbefore, hthere, hafter, hlast, _⟩
  rcases h' with ⟨_, _, _, _, hbefore', hthere', hafter', hlast', _⟩
  cases hbefore.symm.trans hbefore'
  cases hthere.symm.trans hthere'
  cases hafter.symm.trans hafter'
  cases hlast.symm.trans hlast'
  rfl

end Anywhere

end Mtimer.Config

namespace Machine

open Mtimer

theorem isDue_of_sync {m after : Machine} {number hart : Nat}
    (h : sync number hart m = .ok true after) :
    ∃ own, m.outside.mtimers[number]? = some own ∧ own.IsDue := by
  cases hdevice : m.outside.mtimers[number]? with
  | none =>
      unfold sync at h
      rw [bind_of_error (Ipi.onOutside_of_error (Bench.mtimer_of_none hdevice))] at h
      cases h
  | some own =>
      refine ⟨own, rfl, ?_⟩
      by_contra hidle
      rw [sync_of_idle hdevice hidle] at h
      cases h

/-- A machine aligns a device that is due with the reference of this device.  Whatever the two
counters do, what is written then exceeds the sample of the reference, modulo `2 ^ 64`, by no
more than the ticks of the own counter from its first sample to its third and one tick of
rounding, exactly if it has not rolled over between the first two of them.  If it has, half the
range is added to that. -/
theorem excess_of_sync (hart early late : Nat) :
    (∀ {m after : Machine} {number : Nat}, sync number hart m = .ok true after →
      ∃ own place followed delta aligned, m.outside.mtimers[number]? = some own ∧ own.IsDue ∧
        own.reference = some place ∧
        (m.outside.beginning number).mtimers[place]? = some followed ∧
        (own.config.align followed.config hart : MachineM UInt64)
          (m.within (m.outside.beginning number)) = .ok delta aligned) ∧
    ∀ {σ : Type} [ReadsRegisters (EStateM Exit σ)] [WritesRegisters (EStateM Exit σ)]
      {own followed : Config} {start finish : σ} {delta : UInt64},
      (own.align followed hart : EStateM Exit σ UInt64) start = .ok delta finish →
        ∃ samples, own.AlignedBy followed hart samples start finish ∧ samples.delta = delta ∧
          (samples.Spread early late →
            (samples.excess ≤ early + late + 1 ↔ samples.before ≤ samples.after) ∧
            (samples.after < samples.before → 2 ^ 63 ≤ samples.excess ∧
              samples.excess ≤ 2 ^ 63 + early + late + 1)) := by
  constructor
  · intro m after number h
    rcases isDue_of_sync h with ⟨own, hown, hdue⟩
    rcases Option.ne_none_iff_exists'.mp hdue.1 with ⟨place, hplace⟩
    rw [sync_of_due hown hdue hplace] at h
    rcases ok_of_bind_ok h with ⟨followed, m₂, hfollowed, h⟩
    rcases Ipi.ok_of_onOutside hfollowed with ⟨b₂, hb₂, rfl⟩
    rcases Bench.ok_of_mtimer hb₂ with ⟨hfound, rfl⟩
    rcases ok_of_bind_ok h with ⟨delta, aligned, halign, _⟩
    exact ⟨own, place, followed, delta, aligned, hown, hdue, hplace, hfound, halign⟩
  · intro σ _ _ own followed start finish delta h
    rcases Config.alignedBy_of_align h with ⟨samples, haligned, hdelta⟩
    exact ⟨samples, haligned, hdelta, fun hspread =>
      ⟨hspread.excess_le_iff, hspread.excess_of_lt⟩⟩

def steadyConfig : Config where
  timeBase := 0x1000
  timeSize := 8
  compareBase := 0x2000
  compareSize := 16
  frequency := 10000000
  harts := ⟨2, 2⟩
  supportsWhole := true
  sharesTime := false
  windows := []

def tickingConfig : Config :=
  { steadyConfig with timeBase := 0x3000, compareBase := 0x4000, harts := ⟨0, 2⟩ }

def tickingMachine (origin : UInt64) : Machine :=
  { outside :=
    { mtimers := [{ config := steadyConfig }, { config := tickingConfig, reference := some 0 }]
      bus :=
        { memory := fun a => if a = 0x1000 then 1000 else 0
          counters := [⟨0x3000, origin, 10⟩] } } }

def tickingSamples (origin : UInt64) : Samples := ⟨origin, 1000, origin + 10, origin + 10 + 10⟩

theorem spread_tickingSamples (origin : UInt64) : (tickingSamples origin).Spread 10 10 :=
  ⟨rfl, rfl, by decide⟩

/-- The counter rolls over between its first two samples, and is set to the far side of the
range: half of it lies between the reference and what is written. -/
theorem not_excess_le_tickingMachine :
    ∃ after finish, sync 1 0 (tickingMachine 0xfffffffffffffff6) = .ok true after ∧
      tickingConfig.AlignedBy steadyConfig 0 (tickingSamples 0xfffffffffffffff6)
        ((tickingMachine 0xfffffffffffffff6).within
          ((tickingMachine 0xfffffffffffffff6).outside.beginning 1)) finish ∧
      (tickingSamples 0xfffffffffffffff6).Spread 10 10 ∧
      (tickingSamples 0xfffffffffffffff6).written = 0x80000000000003f7 ∧
      ¬(tickingSamples 0xfffffffffffffff6).excess ≤ 10 + 10 + 1 :=
  ⟨_, _, rfl, ⟨_, _, _, _, rfl, rfl, rfl, rfl, rfl⟩,
    spread_tickingSamples _, by decide, by decide⟩

theorem excess_of_sync_tickingMachine :
    ∃ after samples finish, sync 1 0 (tickingMachine 0xfffffffffffffff1) = .ok true after ∧
      tickingConfig.AlignedBy steadyConfig 0 samples
        ((tickingMachine 0xfffffffffffffff1).within
          ((tickingMachine 0xfffffffffffffff1).outside.beginning 1)) finish ∧
      samples.last < samples.after ∧ samples.Spread 10 10 ∧ samples.excess ≤ 10 + 10 + 1 := by
  have hrun : ∃ after, sync 1 0 (tickingMachine 0xfffffffffffffff1) = .ok true after := ⟨_, rfl⟩
  rcases hrun with ⟨after, hsync⟩
  rcases (excess_of_sync 0 10 10).1 hsync with
    ⟨own, place, followed, delta, aligned, hown, _, hplace, hfollowed, halign⟩
  cases hown
  cases hplace
  cases hfollowed
  rcases (excess_of_sync 0 10 10).2 halign with ⟨samples, haligned, _, hexcess⟩
  have hsamples : samples = tickingSamples 0xfffffffffffffff1 :=
    haligned.samples_eq ⟨_, _, _, _, rfl, rfl, rfl, rfl, rfl⟩
  have hspread := spread_tickingSamples 0xfffffffffffffff1
  rw [← hsamples] at hspread
  refine ⟨after, samples, aligned, hsync, haligned, ?_, hspread, (hexcess hspread).1.mpr ?_⟩
  · rw [hsamples]
    decide
  · rw [hsamples]
    decide

end Machine

end Interhart
