import Interhart.Mswi
import Interhart.Proofs.DieWindow.Segments
import Interhart.Proofs.Registers.Words

/-!
# Where the registers of a software-interrupt device lie

The register of a hart lies in the copy of the register block that serves it.  The harts of a
board are so few that their registers take up a small part of the first page of a block.  So
registers in copies with different offsets lie in different pages.
-/

namespace Interhart
namespace Mswi
namespace Config

variable {config : Config} {hart other : Nat}

def offset (config : Config) (hart : Nat) : UInt64 := DieWindow.offsetOf config.windows hart

def place (config : Config) (hart : Nat) : Nat :=
  hart - DieWindow.startOf config.harts.first config.windows hart

/-!
# Valid descriptions
-/

structure Aligned (config : Config) : Prop where
  base : 0x1000 ∣ config.base.toNat
  size : 0x1000 ∣ config.size.toNat
  size_pos : 0 < config.size.toNat
  room : config.harts.count * 4 ≤ config.size.toNat
  count : config.harts.count ≤ hartLimit
  windows : DieWindow.areValid config.harts.first config.harts.stop alignment
    config.windows = true

theorem aligned_of_isValid (h : config.isValid = true) : config.Aligned := by
  simp only [isValid, HartRange.isServable, Bool.and_eq_true, decide_eq_true_eq] at h
  rcases h with ⟨⟨⟨⟨hbase, hsize, hne⟩, hroom⟩, hharts⟩, hwindows⟩
  constructor
  · exact dvd_toNat_of_mod_eq_zero hbase
  · exact dvd_toNat_of_mod_eq_zero hsize
  · exact Nat.pos_of_ne_zero fun hzero => hne (UInt64.toNat_inj.mp hzero)
  · exact hroom
  · have hstop := hharts.2.2
    unfold HartRange.stop at hstop
    omega
  · exact hwindows

theorem dvd_offset (h : config.Aligned) (hart : Nat) : 0x1000 ∣ (config.offset hart).toNat := by
  rcases List.mem_cons.mp (DieWindow.offsetOf_mem config.windows hart) with hzero | hmem
  · rw [offset, hzero]
    exact Nat.dvd_zero _
  · rcases List.mem_map.mp hmem with ⟨window, hwindow, hoffset⟩
    rw [offset, ← hoffset]
    exact dvd_toNat_of_mod_eq_zero (DieWindow.fits_of_areValid h.windows hwindow).offset_mod

theorem dvd_add {base offset : UInt64} (hbase : 0x1000 ∣ base.toNat)
    (hoffset : 0x1000 ∣ offset.toNat) : 0x1000 ∣ (base + offset).toNat := by
  rw [UInt64.toNat_add]
  exact (Nat.dvd_mod_iff (by decide)).mpr (Nat.dvd_add hbase hoffset)

/-!
# Registers in their copy
-/

theorem register?_of_serves (hserves : config.serves hart = true) :
    config.register? hart =
      some (config.base + config.offset hart + UInt64.ofNat (config.place hart * 4)) := by
  rw [register?, if_pos hserves, DieWindow.locate_eq]
  rfl

theorem isSome_register? (hserves : config.serves hart = true) :
    (config.register? hart).isSome = true := by
  rw [register?_of_serves hserves]
  rfl

theorem register?_of_not_serves (hserves : config.serves hart = false) :
    config.register? hart = none := by
  rw [register?, if_neg]
  rw [hserves]
  exact Bool.false_ne_true

theorem serves_of_isSome_register? (h : (config.register? hart).isSome = true) :
    config.serves hart = true := by
  cases hserves : config.serves hart with
  | true => rfl
  | false =>
      rw [register?_of_not_serves hserves] at h
      cases h

theorem serves_of_register? {address : UInt64} (h : config.register? hart = some address) :
    config.serves hart = true :=
  serves_of_isSome_register? (Option.isSome_of_eq_some h)

theorem place_lt (h : config.Aligned) (hserves : config.serves hart = true) :
    config.place hart < config.harts.count := by
  have hstart := DieWindow.le_startOf h.windows hart
  have hharts := HartRange.contains_iff.mp hserves
  unfold place
  unfold HartRange.stop at hharts
  omega

theorem toNat_register (h : config.Aligned) {address : UInt64}
    (haddress : config.register? hart = some address) :
    address.toNat = (config.base + config.offset hart).toNat + config.place hart * 4 := by
  have hserves := serves_of_register? haddress
  rw [register?_of_serves hserves, Option.some.injEq] at haddress
  have hplace := place_lt h hserves
  have hcount := h.count
  have hlimit : hartLimit = 128 := rfl
  have hcopy := dvd_add h.base (dvd_offset h hart)
  have hlt := (config.base + config.offset hart).toNat_lt
  rw [← haddress, UInt64.toNat_add, UInt64.toNat_ofNat']
  omega

end Config
end Mswi
end Interhart
