import Interhart.Proofs.Domain.Coverage
import Interhart.Proofs.Machine.Binding
import Interhart.Proofs.Mtimer.Copies

/-!
# Protected registers

A domain to which drivers alone have added regions protects whatever its regions contain.  When
a timer driver has taken a device on, the registers of a hart are protected, unless they are
cut off: two register blocks that touch across the end of the address space are protected as
one range, and that range ends there.
-/

namespace Interhart

namespace Domain

/-- Regions as drivers add them: protected, and large enough for a register. -/
def OfDrivers (regions : List Region) : Prop :=
  ∀ region ∈ regions, region.flags = .protectedMmio ∧ Region.minOrder ≤ region.order

theorem ofDrivers_rangeRegions (largest : Nat) (range : UInt64 × UInt64) :
    OfDrivers (rangeRegions largest range) :=
  fun _ hmem => ⟨flags_of_mem_pieces hmem, minOrder_le_of_mem_pieces hmem⟩

theorem Grown.ofDrivers {before after : Domain} {asked : List Region}
    (h : Grown before asked after) (hbefore : OfDrivers before.regions)
    (hasked : OfDrivers asked) :
    OfDrivers after.regions := by
  intro region hmem
  rcases h.origin region hmem with hold | hnew
  · exact hbefore region hold
  · exact hasked region hnew

theorem isProtected_iff {domain : Domain} (h : OfDrivers domain.regions) {register byte : Nat}
    (haligned : 8 ∣ register) (hbyte : byte < 8) :
    domain.isProtected (register + byte) = true ↔
      ∃ region ∈ domain.regions, region.contains register = true := by
  rw [isProtected_iff_exists fun region hmem => (h region hmem).1]
  apply exists_congr
  intro region
  apply and_congr_right
  intro hmem
  rw [Region.contains_add (h region hmem).2 haligned hbyte]

end Domain

/-- Domains that began empty and have grown by the calls of drivers
alone, however these ended. -/
inductive DomainReached : Domain → Prop
  | empty : DomainReached {}
  | binding {m : Machine} (h : DomainReached m.outside.domain) (binding : Binding) :
      DomainReached (finalState binding.run m).outside.domain

theorem ofDrivers_regions (b : Bench) (number : Nat) (binder : Binder) :
    Domain.OfDrivers (binder.regions b number) := by
  intro region hmem
  rcases List.mem_flatMap.mp hmem with ⟨range, _, hregion⟩
  exact Domain.ofDrivers_rangeRegions Mtimer.pieceLimit range region hregion

theorem Binding.grown (binding : Binding) (m : Machine) :
    Domain.Grown m.outside.domain (binding.binder.regions m.outside binding.number)
      (finalState binding.run m).outside.domain := by
  have hends : Contract (· = m) binding.run
      (fun _ m' => Domain.Grown m.outside.domain
        (binding.binder.regions m.outside binding.number) m'.outside.domain)
      (fun _ m' => Domain.Grown m.outside.domain
        (binding.binder.regions m.outside binding.number) m'.outside.domain) := by
    refine (binding.contract_run m).weaken (fun _ hm => hm) (fun _ _ hbound => hbound.grown) ?_
    intro exit m' hended
    rcases hended with ⟨_, hunbound⟩ | hunlogged
    · cases hunbound with
      | early domain hgrown halike _ =>
          rcases halike with ⟨_, _, _, _, _, hafter⟩
          rw [hafter]
          exact hgrown
      | late hunlogged => exact hunlogged.grown
    · exact hunlogged.grown
  exact hends.finalState rfl

theorem DomainReached.ofDrivers {domain : Domain} (h : DomainReached domain) :
    Domain.OfDrivers domain.regions := by
  induction h with
  | empty => exact fun _ hmem => absurd hmem List.not_mem_nil
  | binding h binding ih => exact (binding.grown _).ofDrivers ih (ofDrivers_regions _ _ _)

namespace Mtimer.Config

/-- Whether a register lies in a region of a copy other than the one that serves the hart. -/
def CoveredElsewhere (config : Config) (hart : Nat) (register : UInt64) : Prop :=
  ∃ offset ∈ config.offsets, offset ≠ config.offset hart ∧
    ∃ range ∈ config.copyRanges offset,
      ∃ region ∈ Domain.rangeRegions pieceLimit range, region.contains register.toNat = true

theorem ranges_eq_ok {config : Config} {found : List (UInt64 × UInt64)}
    (h : config.ranges = .ok found) :
    config.timeSize.toNat + config.compareSize.toNat < UInt64.size ∧
      found = config.offsets.flatMap config.copyRanges := by
  unfold ranges at h
  split at h
  · cases h
    exact ⟨‹_›, rfl⟩
  · cases h

end Mtimer.Config

namespace Bench

theorem Bound.mem_regions_iff {binder : Binder} {number : Nat} {b b' : Bench}
    (h : Bound binder number b b') {region : Region} :
    region ∈ b'.domain.regions ↔
      region ∈ b.domain.regions ∨ region ∈ binder.regions b number := by
  constructor
  · exact h.grown.origin region
  · intro hmem
    rcases hmem with hold | hnew
    · exact h.grown.subset hold
    · exact h.recorded hnew

theorem Bound.mtimer_ranges {driver : DriverId} {number : Nat} {b b' : Bench}
    (h : Bound (.mtimer driver) number b b') {device : Mtimer.Device}
    (hdevice : b.mtimers[number]? = some device) :
    device.config.isValid = true ∧
      device.config.timeSize.toNat + device.config.compareSize.toNat < UInt64.size ∧
      (Binder.mtimer driver).regions b number =
        (device.config.offsets.flatMap device.config.copyRanges).flatMap
          (Domain.rangeRegions Mtimer.pieceLimit) ∧
      ∀ offset ∈ device.config.offsets, ∀ range ∈ device.config.copyRanges offset,
        Domain.rangeOverruns Mtimer.pieceLimit range = false := by
  have hconfig : (b.mtimers.map (·.config))[number]? = some device.config := by
    rw [List.getElem?_map, hdevice]
    rfl
  have hvalid := h.valid
  rw [Binder.isValid, hconfig] at hvalid
  rcases h.ranges with ⟨ranges, hranges, hends⟩
  have hregions : (Binder.mtimer driver).regions b number =
      ranges.flatMap (Domain.rangeRegions Mtimer.pieceLimit) := by
    rw [Binder.regions, hranges, Option.getD_some]
  rw [Binder.ranges?, hconfig, Option.bind_some] at hranges
  cases hok : device.config.ranges with
  | error fault =>
      rw [hok] at hranges
      cases hranges
  | ok found =>
      rw [hok] at hranges
      cases hranges
      rcases Mtimer.Config.ranges_eq_ok hok with ⟨hsum, rfl⟩
      refine ⟨hvalid, hsum, hregions, ?_⟩
      intro offset hoffset range hrange
      exact hends range (List.mem_flatMap.mpr ⟨offset, hoffset, hrange⟩)

end Bench

/-- Which bytes of the registers of a hart are protected after the driver has taken the device
on that serves the hart: all but those cut off, and of these the ones that another device or
another copy happens to cover. -/
theorem isProtected_register_iff {before after : Machine}
    (hreached : DomainReached before.outside.domain) {driver : DriverId} {number : Nat}
    {reference : Option Nat}
    (hrun : (Binding.mtimer driver number reference).run before = .ok () after)
    {device : Mtimer.Device} (hdevice : before.outside.mtimers[number]? = some device)
    {hart : Nat} (hserves : device.config.serves hart = true) {register : UInt64}
    (hregister : register ∈ device.config.registers hart) {byte : Nat} (hbyte : byte < 8) :
    after.outside.domain.isProtected (register.toNat + byte) = true ↔
      ¬device.config.CutOff hart register ∨
        before.outside.domain.isProtected (register.toNat + byte) = true ∨
        device.config.CoveredElsewhere hart register := by
  have hbound : Bench.Bound (.mtimer driver) number before.outside after.outside :=
    (Binding.contract_run _ before).of_ok rfl hrun
  rcases hbound.mtimer_ranges hdevice with ⟨hvalid, hsum, hregions, hends⟩
  have haligned := Mtimer.Config.aligned_of_isValid hvalid
  have hplace := Mtimer.Config.register_mod_eight haligned hserves hregister
  have hbefore := hreached.ofDrivers
  have hafter := hbound.grown.ofDrivers hbefore (ofDrivers_regions _ _ _)
  have hown := Mtimer.Config.contains_iff_not_cutOff haligned hsum hserves hregister
    (hends _ (DieWindow.offsetOf_mem _ _))
  rw [Domain.isProtected_iff hafter hplace hbyte,
    Domain.isProtected_iff hbefore hplace hbyte, ← hown]
  constructor
  · intro hprotected
    rcases hprotected with ⟨region, hmem, hcontains⟩
    rcases hbound.mem_regions_iff.mp hmem with hold | hnew
    · exact .inr (.inl ⟨region, hold, hcontains⟩)
    · rw [hregions] at hnew
      rcases List.mem_flatMap.mp hnew with ⟨range, hrange, hregion⟩
      rcases List.mem_flatMap.mp hrange with ⟨offset, hoffset, hcopy⟩
      by_cases hsame : offset = device.config.offset hart
      · subst hsame
        exact .inl ⟨range, hcopy, region, hregion, hcontains⟩
      · exact .inr (.inr ⟨offset, hoffset, hsame, range, hcopy, region, hregion, hcontains⟩)
  · have hcopy {offset : UInt64} (hoffset : offset ∈ device.config.offsets)
        {range : UInt64 × UInt64} (hrange : range ∈ device.config.copyRanges offset)
        {region : Region} (hregion : region ∈ Domain.rangeRegions Mtimer.pieceLimit range) :
        region ∈ after.outside.domain.regions := by
      refine hbound.mem_regions_iff.mpr (.inr ?_)
      rw [hregions]
      exact List.mem_flatMap.mpr ⟨range, List.mem_flatMap.mpr ⟨offset, hoffset,
        hrange⟩, hregion⟩
    intro hcovered
    rcases hcovered with ⟨range, hrange, region, hregion, hcontains⟩ |
      ⟨region, hold, hcontains⟩ | ⟨offset, hoffset, _, range, hrange, region, hregion,
        hcontains⟩
    · exact ⟨region, hcopy (DieWindow.offsetOf_mem _ _) hrange hregion, hcontains⟩
    · exact ⟨region, hbound.mem_regions_iff.mpr (.inl hold), hcontains⟩
    · exact ⟨region, hcopy hoffset hrange hregion, hcontains⟩

def wrappedDevice : Mtimer.Device :=
  { config :=
    { timeBase := 0x1000, timeSize := 8, compareBase := 0xfffffffffffff000,
      compareSize := 0x2000
      frequency := 10000000, harts := ⟨0, 1⟩, supportsWhole := true, sharesTime := false
      windows := [] } }

def wrappedMachine : Machine := { outside := { mtimers := [wrappedDevice] } }

theorem isProtected_register_wrappedMachine :
    (finalState (Binding.mtimer 0 0 none).run wrappedMachine).outside.domain.isProtected
      ((0xfffffffffffff000 : UInt64).toNat + 7) = true := by
  have hrun := ok_of_succeeds (by decide +kernel :
    succeeds (Binding.mtimer 0 0 none).run wrappedMachine = true)
  have hdevice : wrappedMachine.outside.mtimers[0]? = some wrappedDevice := rfl
  have hserves : wrappedDevice.config.serves 0 = true := by decide
  have hregister : 0xfffffffffffff000 ∈ wrappedDevice.config.registers 0 := by decide
  refine (isProtected_register_iff .empty hrun hdevice hserves hregister (by decide)).mpr
    (.inl ?_)
  intro hcut
  rcases hcut with ⟨base, size, hone, hbefore⟩
  have hranges : wrappedDevice.config.copyRanges (wrappedDevice.config.offset 0) =
      [(0xfffffffffffff000, 0x2008)] := by decide
  rw [hranges] at hone
  cases hone
  exact absurd hbefore (by decide)

/-- Its counter lies behind the end, and no byte of it is protected. -/
theorem counter_wrappedMachine_not_protected :
    DomainReached wrappedMachine.outside.domain ∧
      succeeds (Binding.mtimer 0 0 none).run wrappedMachine = true ∧
      wrappedDevice.config.serves 0 = true ∧ wrappedDevice.config.timeRegister 0 = 0x1000 ∧
      ∀ byte < 8,
        (finalState (Binding.mtimer 0 0 none).run wrappedMachine).outside.domain.isProtected
        (0x1000 + byte) = false :=
  ⟨.empty, by decide +kernel, by decide, by decide, by decide +kernel⟩

end Interhart
