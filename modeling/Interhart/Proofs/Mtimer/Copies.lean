import Interhart.Mtimer
import Interhart.Proofs.DieWindow.Segments
import Interhart.Proofs.Domain.Pieces
import Interhart.Proofs.Registers.Words

/-!
# Where the registers of a timer device lie

The registers of a hart lie in the copy of the register blocks that serves it.  They lie in the
ranges of that copy, except where a range that joins the two blocks runs over the end of the
address space: such a range is cut off there, while the registers go on at address zero.
-/

namespace Interhart

namespace Mtimer

theorem isLimit_pieceLimit : Domain.IsLimit pieceLimit := ⟨by decide, by decide, by decide⟩

namespace Config

variable {config : Config} {hart : Nat} {register : UInt64}

def offsets (config : Config) : List UInt64 := 0 :: config.windows.map (·.offset)

def offset (config : Config) (hart : Nat) : UInt64 := DieWindow.offsetOf config.windows hart

def place (config : Config) (hart : Nat) : Nat :=
  hart - DieWindow.startOf config.harts.first config.windows hart

def registers (config : Config) (hart : Nat) : List UInt64 :=
  config.timeRegister hart :: (config.compareRegister? hart).toList

/-- Whether a register of a hart lies beyond the end of the address space, seen from the start
of the range that joins the two blocks of its copy. -/
def CutOff (config : Config) (hart : Nat) (register : UInt64) : Prop :=
  ∃ base size, config.copyRanges (config.offset hart) = [(base, size)] ∧ register < base

/-!
# Valid descriptions
-/

theorem toNat_mod_eight {word : UInt64} (h : word % alignment = 0) : word.toNat % 8 = 0 :=
  Nat.mod_eq_zero_of_dvd (dvd_toNat_of_mod_eq_zero h)

structure Aligned (config : Config) : Prop where
  timeSize_pos : 0 < config.timeSize.toNat
  timeBase : config.timeBase.toNat % 8 = 0
  timeSize : config.timeSize.toNat % 8 = 0
  compareBase : config.compareBase.toNat % 8 = 0
  compareSize : config.compareSize.toNat % 8 = 0
  room : config.harts.count * 8 ≤ config.compareSize.toNat
  count : config.harts.count ≤ hartLimit
  windows : DieWindow.areValid config.harts.first config.harts.stop alignment
    config.windows = true

theorem aligned_of_isValid (h : config.isValid = true) : config.Aligned := by
  simp only [isValid, HartRange.isServable, Bool.and_eq_true, decide_eq_true_eq] at h
  rcases h with ⟨⟨⟨⟨⟨hsizes, htime⟩, hcompare⟩, hroom⟩, hharts⟩, hwindows⟩
  constructor
  · have hne : config.timeSize.toNat ≠ 0 := fun hzero =>
      hsizes.1 (UInt64.toNat_inj.mp hzero)
    omega
  · exact toNat_mod_eight htime.1
  · exact toNat_mod_eight htime.2
  · exact toNat_mod_eight hcompare.1
  · exact toNat_mod_eight hcompare.2
  · exact hroom
  · have hstop := hharts.2.2
    unfold HartRange.stop at hstop
    omega
  · exact hwindows

theorem offset_mem_offsets (config : Config) (hart : Nat) :
    config.offset hart ∈ config.offsets :=
  DieWindow.offsetOf_mem config.windows hart

theorem mod_eight_of_mem_offsets (h : config.Aligned) {copy : UInt64}
    (hmem : copy ∈ config.offsets) : copy.toNat % 8 = 0 := by
  rcases List.mem_cons.mp hmem with rfl | hmem
  · rfl
  · rcases List.mem_map.mp hmem with ⟨window, hwindow, rfl⟩
    exact toNat_mod_eight (DieWindow.fits_of_areValid h.windows hwindow).offset_mod

/-!
# Registers in their copy
-/

theorem timeRegister_eq (config : Config) (hart : Nat) :
    config.timeRegister hart = config.timeBase + config.offset hart := by
  unfold timeRegister offset
  rw [DieWindow.locate_eq, RegisterBlock.address, UInt64.add_zero]

theorem compareRegister?_of_serves (hserves : config.serves hart = true) :
    config.compareRegister? hart =
      some (config.compareBase + config.offset hart +
        UInt64.ofNat (config.place hart * 8)) := by
  rw [compareRegister?, if_pos hserves, DieWindow.locate_eq]
  rfl

theorem place_lt (h : config.Aligned) (hserves : config.serves hart = true) :
    config.place hart < config.harts.count := by
  have hstart := DieWindow.le_startOf h.windows hart
  have hharts := HartRange.contains_iff.mp hserves
  unfold place
  unfold HartRange.stop at hharts
  omega

theorem mem_registers (h : config.Aligned) (hserves : config.serves hart = true)
    (hmem : register ∈ config.registers hart) :
    register = config.timeBase + config.offset hart ∨
      ∃ place, place < config.harts.count ∧
        register = config.compareBase + config.offset hart + UInt64.ofNat (place * 8) := by
  rcases List.mem_cons.mp hmem with htime | hcompare
  · exact .inl (htime.trans (config.timeRegister_eq hart))
  · rw [compareRegister?_of_serves hserves, Option.mem_toList, Option.some.injEq] at hcompare
    exact .inr ⟨config.place hart, place_lt h hserves, hcompare.symm⟩

theorem register_mod_eight (h : config.Aligned) (hserves : config.serves hart = true)
    (hmem : register ∈ config.registers hart) : 8 ∣ register.toNat := by
  have hoffset := mod_eight_of_mem_offsets h (config.offset_mem_offsets hart)
  have htime := h.timeBase
  have hcompare := h.compareBase
  rcases mem_registers h hserves hmem with rfl | ⟨place, _, rfl⟩
  · rw [UInt64.toNat_add]
    omega
  · rw [UInt64.toNat_add, UInt64.toNat_add, UInt64.toNat_ofNat']
    omega

theorem dvd_copy (h : config.Aligned) {copy : UInt64} (hmem : copy ∈ config.offsets) :
    8 ∣ (config.timeBase + copy).toNat ∧ 8 ∣ (config.compareBase + copy).toNat := by
  have htime := h.timeBase
  have hcompare := h.compareBase
  have hoffset := mod_eight_of_mem_offsets h hmem
  rw [UInt64.toNat_add, UInt64.toNat_add]
  omega

theorem dvd_of_mem_copyRanges (h : config.Aligned) {copy : UInt64}
    (hcopy : copy ∈ config.offsets) {range : UInt64 × UInt64}
    (hmem : range ∈ config.copyRanges copy) : 8 ∣ range.1.toNat := by
  have haligned := dvd_copy h hcopy
  unfold copyRanges at hmem
  dsimp only at hmem
  split at hmem
  · rw [List.mem_singleton.mp hmem]
    exact haligned.2
  · split at hmem
    · rw [List.mem_singleton.mp hmem]
      exact haligned.1
    · rcases List.mem_cons.mp hmem with rfl | hmem
      · exact haligned.1
      · rw [List.mem_singleton.mp hmem]
        exact haligned.2

theorem toNat_add_le (a b : UInt64) : (a + b).toNat ≤ a.toNat + b.toNat := by
  rw [UInt64.toNat_add]
  exact Nat.mod_le _ _

theorem toNat_place_lt {place : Nat} (hplace : place < config.harts.count)
    (hroom : config.harts.count * 8 ≤ config.compareSize.toNat) :
    (UInt64.ofNat (place * 8)).toNat < config.compareSize.toNat := by
  rw [UInt64.toNat_ofNat']
  have hmod := Nat.mod_le (place * 8) (2 ^ 64)
  omega

section Copy

variable (h : config.Aligned)
  (hsum : config.timeSize.toNat + config.compareSize.toNat < UInt64.size)
  (hserves : config.serves hart = true) (hmem : register ∈ config.registers hart)

include h hsum hserves hmem

theorem lt_of_joined {base total : UInt64}
    (htotal : total = config.timeSize + config.compareSize)
    (hbase : (base = config.compareBase + config.offset hart ∧
        config.timeBase + config.offset hart = base + config.compareSize) ∨
      (base = config.timeBase + config.offset hart ∧
        config.compareBase + config.offset hart = base + config.timeSize)) :
    register.toNat < base.toNat + total.toNat := by
  have hpos := h.timeSize_pos
  have hsizes : total.toNat = config.timeSize.toNat + config.compareSize.toNat := by
    rw [htotal, UInt64.toNat_add]
    exact Nat.mod_eq_of_lt hsum
  rcases mem_registers h hserves hmem with rfl | ⟨place, hplace, rfl⟩
  · rcases hbase with ⟨_, htime⟩ | ⟨rfl, _⟩
    · have hend := toNat_add_le base config.compareSize
      rw [htime]
      omega
    · omega
  · have hplaced := toNat_place_lt hplace h.room
    have hregister := toNat_add_le (config.compareBase + config.offset hart)
      (UInt64.ofNat (place * 8))
    rcases hbase with ⟨rfl, _⟩ | ⟨_, hcompare⟩
    · omega
    · have hend := toNat_add_le base config.timeSize
      rw [hcompare] at hregister ⊢
      omega

omit hsum in
/-- Where the blocks of a copy are apart, none of them runs over the end of the address space
as long as it comes to be protected, except behind the last register. -/
theorem exists_mem_of_apart {time compare : UInt64}
    (htime : time = config.timeBase + config.offset hart)
    (hcompare : compare = config.compareBase + config.offset hart)
    (hends : Domain.rangeOverruns pieceLimit (compare, config.compareSize) = false) :
    ∃ range ∈ [(time, config.timeSize), (compare, config.compareSize)],
      range.1.toNat ≤ register.toNat ∧ register.toNat < range.1.toNat + range.2.toNat := by
  have hpos := h.timeSize_pos
  rcases mem_registers h hserves hmem with hregister | ⟨place, hplace, hregister⟩
  · refine ⟨_, List.mem_cons_self, ?_⟩
    rw [hregister, ← htime]
    dsimp only
    omega
  · refine ⟨_, List.mem_cons_of_mem _ (List.mem_singleton_self _), ?_⟩
    have hroom := h.room
    have hcount := h.count
    have hlimit : hartLimit = 128 := rfl
    have hfits : compare.toNat + place * 8 < 2 ^ 64 := by
      by_contra hwraps
      have hblock := Domain.add_blockSize_le_of_not_rangeOverruns isLimit_pieceLimit
        (hcompare ▸ (dvd_copy h (config.offset_mem_offsets hart)).2)
          (by dsimp only; omega) hends
      have hsize : blockSize pieceLimit.log2 = 4096 := rfl
      dsimp only at hblock
      omega
    have hplain : register.toNat = compare.toNat + place * 8 := by
      rw [hregister, ← hcompare, UInt64.toNat_add, UInt64.toNat_ofNat']
      omega
    rw [hplain]
    dsimp only
    omega

end Copy

theorem exists_mem_copyRanges (h : config.Aligned)
    (hsum : config.timeSize.toNat + config.compareSize.toNat < UInt64.size)
    (hserves : config.serves hart = true) (hmem : register ∈ config.registers hart)
    (hends : ∀ range ∈ config.copyRanges (config.offset hart),
      Domain.rangeOverruns pieceLimit range = false)
    (hcut : ¬config.CutOff hart register) :
    ∃ range ∈ config.copyRanges (config.offset hart),
      range.1.toNat ≤ register.toNat ∧ register.toNat < range.1.toNat + range.2.toNat := by
  -- A register that is not cut off cannot lie in front of a joint range.
  have hjoined {base total : UInt64}
      (hone : config.copyRanges (config.offset hart) = [(base, total)]) :
      base.toNat ≤ register.toNat := by
    by_contra hlt
    exact hcut ⟨base, total, hone, UInt64.lt_iff_toNat_lt.mpr (Nat.not_le.mp hlt)⟩
  by_cases htime : config.timeBase + config.offset hart =
      config.compareBase + config.offset hart + config.compareSize
  · have hone : config.copyRanges (config.offset hart) =
        [(config.compareBase + config.offset hart, config.timeSize + config.compareSize)] :=
      if_pos htime
    rw [hone]
    refine ⟨_, List.mem_singleton_self _, hjoined hone, ?_⟩
    exact lt_of_joined h hsum hserves hmem rfl (.inl ⟨rfl, htime⟩)
  · by_cases hcompare : config.compareBase + config.offset hart =
        config.timeBase + config.offset hart + config.timeSize
    · have hone : config.copyRanges (config.offset hart) =
          [(config.timeBase + config.offset hart, config.timeSize + config.compareSize)] :=
        (if_neg htime).trans (if_pos hcompare)
      rw [hone]
      refine ⟨_, List.mem_singleton_self _, hjoined hone, ?_⟩
      exact lt_of_joined h hsum hserves hmem rfl (.inr ⟨rfl, hcompare⟩)
    · have htwo : config.copyRanges (config.offset hart) =
          [(config.timeBase + config.offset hart, config.timeSize),
            (config.compareBase + config.offset hart, config.compareSize)] :=
        (if_neg htime).trans (if_neg hcompare)
      rw [htwo] at hends ⊢
      exact exists_mem_of_apart h hserves hmem rfl rfl
        (hends _ (List.mem_cons_of_mem _ (List.mem_singleton_self _)))

theorem contains_iff_not_cutOff (h : config.Aligned)
    (hsum : config.timeSize.toNat + config.compareSize.toNat < UInt64.size)
    (hserves : config.serves hart = true) (hmem : register ∈ config.registers hart)
    (hends : ∀ range ∈ config.copyRanges (config.offset hart),
      Domain.rangeOverruns pieceLimit range = false) :
    (∃ range ∈ config.copyRanges (config.offset hart),
      ∃ region ∈ Domain.rangeRegions pieceLimit range, region.contains register.toNat = true) ↔
      ¬config.CutOff hart register := by
  constructor
  · intro hfound hcut
    rcases hfound with ⟨range, hrange, region, hregion, hcontains⟩
    rcases hcut with ⟨base, size, hone, hbefore⟩
    have haligned := dvd_of_mem_copyRanges h (config.offset_mem_offsets hart) hrange
    have hstart := Domain.le_of_mem_rangeRegions isLimit_pieceLimit haligned hregion hcontains
    rw [hone] at hrange
    rw [List.mem_singleton.mp hrange] at hstart
    exact absurd (UInt64.lt_iff_toNat_lt.mp hbefore) (Nat.not_lt.mpr hstart)
  · intro hcut
    rcases exists_mem_copyRanges h hsum hserves hmem hends hcut with ⟨range, hrange,
      hstart, hend⟩
    have haligned := dvd_of_mem_copyRanges h (config.offset_mem_offsets hart) hrange
    have hinside : Domain.InRange range register.toNat :=
      ⟨hstart, hend, Nat.le_sub_one_of_lt register.toNat_lt⟩
    exact ⟨range, hrange,
      Domain.exists_contains_of_inRange isLimit_pieceLimit haligned hinside⟩

end Config
end Mtimer
end Interhart
