import Interhart.Proofs.Domain.Coverage
import Interhart.Proofs.Machine.Isolation
import Interhart.Proofs.Mswi.Copies

/-!
# Exactly the registers of a device

A range that starts and ends at multiples of the limit of a piece is divided into whole pieces,
also where it ends at the end of the address space and its last piece is cut short by one byte.
The register blocks of software-interrupt devices are such ranges.  So where nothing but
protected memory has been recorded, taking a device on protects its blocks and no address
beside them.
-/

namespace Interhart

namespace Domain

theorem exists_contains_iff_inRange {largest : Nat} {range : UInt64 × UInt64}
    (hlimit : IsLimit largest) (hstart : largest ∣ range.1.toNat)
    (hsize : largest ∣ range.2.toNat)
    {address : Nat} :
    (∃ region ∈ rangeRegions largest range, region.contains address = true) ↔
      InRange range address := by
  have haligned : 8 ∣ range.1.toNat := hlimit.eight_dvd.trans hstart
  constructor
  · intro hcovered
    rcases hcovered with ⟨region, hmem, hcontains⟩
    have hpiece := isPiece_of_mem_rangeRegions hlimit hlimit.eight_dvd (Nat.dvd_refl largest)
      hstart hmem
    have hplace := (hpiece.contains_iff hlimit.log2_lt).mp hcontains
    have hlarge := (blockSize_le_of_mem_rangeRegions hlimit haligned hmem).1
    have hbase := Nat.lt_min.mp hpiece.base_lt
    have hspace : largest ∣ blockSize addressBits := by
      rw [← hlimit.blockSize_log2]
      exact dvd_blockSize (Nat.le_of_lt hlimit.log2_lt)
    have hnext : largest ∣ region.base + largest := Nat.dvd_add_self_right.mpr hpiece.unit_dvd
    have hlast : lastAddress + 1 = blockSize addressBits := rfl
    -- The range and the address space end at multiples of the limit, and no piece reaches
    -- over one.
    have hwithin : region.base + largest ≤ range.1.toNat + range.2.toNat :=
      Nat.le_of_lt_add_of_dvd (by omega) hnext (Nat.dvd_add hstart hsize)
    have hend : region.base + largest ≤ blockSize addressBits :=
      Nat.le_of_lt_add_of_dvd (by omega) hnext hspace
    exact ⟨hpiece.position_le.trans hplace.1, by omega, by omega⟩
  · exact exists_contains_of_inRange hlimit haligned

end Domain

namespace Mswi
namespace Config

/-- Whether an address lies in the register block of a device or in the copy of a window. -/
def InBlocks (config : Config) (address : Nat) : Prop :=
  ∃ base ∈ config.base :: config.windows.map (fun window => config.base + window.offset),
    Domain.InRange (base, config.size) address

instance (config : Config) (address : Nat) : Decidable (config.InBlocks address) :=
  inferInstanceAs (Decidable (∃ base ∈ _, _))

theorem inBlocks_iff {config : Config} {address : Nat} :
    config.InBlocks address ↔ ∃ range ∈ config.blocks, Domain.InRange range address := by
  constructor
  · intro hinside
    rcases hinside with ⟨base, hmem, hrange⟩
    exact ⟨(base, config.size), List.mem_map_of_mem hmem, hrange⟩
  · intro hinside
    rcases hinside with ⟨range, hmem, hrange⟩
    rcases List.mem_map.mp hmem with ⟨base, hbase, rfl⟩
    exact ⟨base, hbase, hrange⟩

theorem dvd_of_mem_blocks {config : Config} (hvalid : config.isValid = true)
    {range : UInt64 × UInt64} (hmem : range ∈ config.blocks) :
    0x1000 ∣ range.1.toNat ∧ 0x1000 ∣ range.2.toNat := by
  have haligned := aligned_of_isValid hvalid
  rcases List.mem_map.mp hmem with ⟨base, hcopy, rfl⟩
  refine ⟨?_, haligned.size⟩
  rcases List.mem_cons.mp hcopy with rfl | hshifted
  · exact haligned.base
  · rcases List.mem_map.mp hshifted with ⟨window, hwindow, rfl⟩
    exact dvd_add haligned.base
      (dvd_toNat_of_mod_eq_zero
        (DieWindow.fits_of_areValid haligned.windows hwindow).offset_mod)

end Config
end Mswi

theorem Bench.Bound.mswi_regions {driver : DriverId} {number : Nat} {b b' : Bench}
    (h : Bound (.mswi driver) number b b') {config : Mswi.Config}
    (hconfig : b.mswis[number]? = some config) :
    config.isValid = true ∧
      (Binder.mswi driver).regions b number =
        config.blocks.flatMap (Domain.rangeRegions Mtimer.pieceLimit) := by
  have hvalid := h.valid
  rw [Binder.isValid, hconfig] at hvalid
  refine ⟨hvalid, ?_⟩
  rw [Binder.regions, Binder.ranges?, hconfig]
  rfl

/-- After the driver has taken a device on, the addresses in its register blocks are protected,
and beside them only those that were before. -/
theorem isProtected_iff_inBlocks {before after : Machine}
    (hplain : ∀ region ∈ before.outside.domain.regions, region.flags = .protectedMmio)
    {driver : DriverId} {number : Nat}
    (hrun : (Binding.mswi driver number).run before = .ok () after)
    {config : Mswi.Config} (hconfig : before.outside.mswis[number]? = some config)
    (address : Nat) :
    after.outside.domain.isProtected address = true ↔
      before.outside.domain.isProtected address = true ∨ config.InBlocks address := by
  have hbound : Bench.Bound (.mswi driver) number before.outside after.outside :=
    (Binding.contract_run _ before).of_ok rfl hrun
  rcases hbound.mswi_regions hconfig with ⟨hvalid, hregions⟩
  have hblock {range : UInt64 × UInt64} (hmem : range ∈ config.blocks) :
      (∃ region ∈ Domain.rangeRegions Mtimer.pieceLimit range, region.contains address = true) ↔
        Domain.InRange range address :=
    Domain.exists_contains_iff_inRange Mtimer.isLimit_pieceLimit
      (Mswi.Config.dvd_of_mem_blocks hvalid hmem).1
      (Mswi.Config.dvd_of_mem_blocks hvalid hmem).2
  have hafter : ∀ region ∈ after.outside.domain.regions, region.flags = .protectedMmio := by
    intro region hmem
    rcases hbound.grown.origin region hmem with hold | hnew
    · exact hplain region hold
    · exact (ofDrivers_regions _ _ _ region hnew).1
  rw [Domain.isProtected_iff_exists hafter, Domain.isProtected_iff_exists hplain,
    Mswi.Config.inBlocks_iff]
  constructor
  · intro hcovered
    rcases hcovered with ⟨region, hmem, hcontains⟩
    rcases hbound.mem_regions_iff.mp hmem with hold | hnew
    · exact .inl ⟨region, hold, hcontains⟩
    · rw [hregions] at hnew
      rcases List.mem_flatMap.mp hnew with ⟨range, hrange, hregion⟩
      exact .inr ⟨range, hrange, (hblock hrange).mp ⟨region, hregion, hcontains⟩⟩
  · intro hcovered
    rcases hcovered with ⟨region, hold, hcontains⟩ | ⟨range, hrange, hinside⟩
    · exact ⟨region, hbound.mem_regions_iff.mpr (.inl hold), hcontains⟩
    · rcases (hblock hrange).mpr hinside with ⟨region, hregion, hcontains⟩
      have hnew : region ∈ (Binder.mswi driver).regions before.outside number := by
        rw [hregions]
        exact List.mem_flatMap.mpr ⟨range, hrange, hregion⟩
      exact ⟨region, hbound.mem_regions_iff.mpr (.inr hnew), hcontains⟩

def lastPageConfig : Mswi.Config :=
  { base := 0x1000, size := 0x1000, harts := ⟨0, 4⟩, windows := [⟨2, 0xffffffffffffe000⟩] }

def lastPageMachine : Machine :=
  { outside := { mswis := [lastPageConfig], domain := ⟨[⟨0, 3, .protectedMmio⟩]⟩ } }

theorem isProtected_iff_inBlocks_lastPage :
    succeeds (Binding.mswi 0 0).run lastPageMachine = true ∧
      (finalState (Binding.mswi 0 0).run lastPageMachine).outside.domain.isProtected
          lastAddress =
        true ∧
      ¬(finalState (Binding.mswi 0 0).run lastPageMachine).outside.domain.isProtected
          0x2000 = true := by
  have hsucceeds : succeeds (Binding.mswi 0 0).run lastPageMachine = true := by decide +kernel
  have hprotected := isProtected_iff_inBlocks (by decide) (ok_of_succeeds hsucceeds)
    (rfl : lastPageMachine.outside.mswis[0]? = some lastPageConfig)
  refine ⟨hsucceeds, ?_, ?_⟩
  · exact (hprotected lastAddress).mpr (.inr (by decide))
  · rw [hprotected 0x2000]
    decide

end Interhart
