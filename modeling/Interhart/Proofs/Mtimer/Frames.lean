import Interhart.Proofs.Machine.Accesses
import Mathlib.Data.List.Pairwise

/-!
# What arming a timer changes

Arming the timer of a hart writes its compare register.  No other register of the device is to
be affected: neither the counter, as any hart sees it, nor the compare register of another
hart.  Registers lie at multiples of their size, so one that is not the compare register of the
hart is not affected at all.  But a valid description may put several registers at one address,
since the two register blocks and their copies are nowhere compared.
-/

namespace Interhart

/-!
# Registers on the bus
-/

namespace Bus

variable {bus : Bus} {address other : UInt64}

theorem peek_store (bus : Bus) (access : RegisterAccess) (parked : UInt32)
    (address value place : UInt64) :
    (bus.store access parked address value).peek place =
      if place = address then lowHalf value
      else if place = address + 4 then highHalf value else bus.peek place := by
  by_cases hlow : place = address
  · rw [if_pos hlow, hlow]
    cases access with
    | whole =>
        rw [store, poke64, peek_poke_of_ne _ (add_four_ne address).symm, peek_poke_self]
    | halves => rw [store, peek_poke_self]
  · rw [if_neg hlow]
    by_cases hhigh : place = address + 4
    · rw [if_pos hhigh]
      rw [hhigh] at hlow ⊢
      cases access with
      | whole => rw [store, poke64, peek_poke_self]
      | halves => rw [store, peek_poke_of_ne _ hlow, peek_poke_self]
    · rw [if_neg hhigh]
      cases access with
      | whole => rw [store, poke64, peek_poke_of_ne _ hhigh, peek_poke_of_ne _ hlow]
      | halves =>
          rw [store, peek_poke_of_ne _ hlow, peek_poke_of_ne _ hhigh, peek_poke_of_ne _ hlow]

theorem peek64_store (bus : Bus) (access : RegisterAccess) (parked : UInt32) (value : UInt64)
    (haddress : 8 ∣ address.toNat) (hother : 8 ∣ other.toNat) :
    (bus.store access parked address value).peek64 other =
      if other = address then value else bus.peek64 other := by
  unfold peek64
  rw [peek_store, peek_store]
  by_cases hsame : other = address
  · rw [hsame, if_pos rfl, if_pos rfl, if_neg (add_four_ne address), if_pos rfl,
      joinHalves_halves]
  · have hhigh : other + 4 ≠ address + 4 := by
      intro hsum
      exact hsame ((UInt64.add_left_inj 4).mp hsum)
    rw [if_neg hsame, if_neg hsame, if_neg (ne_add_four haddress hother),
      if_neg (ne_add_four hother haddress).symm, if_neg hhigh]

theorem store32_apply (h : address % 4 = 0) (word : UInt32) (bus : Bus) :
    (store32 address word : EStateM Exit Bus Unit) bus = .ok () (bus.poke address word) := by
  unfold store32
  rw [if_pos h]
  rfl

theorem write_apply (access : RegisterAccess) (parked : UInt32) (h : 8 ∣ address.toNat)
    (value : UInt64) (bus : Bus) :
    (access.write parked address value : EStateM Exit Bus Unit) bus =
      .ok () (bus.store access parked address value) := by
  cases access with
  | whole =>
      unfold RegisterAccess.write store64
      dsimp only
      rw [if_pos (mod_eight_of_dvd h)]
      rfl
  | halves =>
      rcases halves_mod_four h with ⟨hlow, hhigh⟩
      unfold RegisterAccess.write writeHalves
      dsimp only
      rw [bind_of_ok (store32_apply hlow parked bus),
        bind_of_ok (store32_apply hhigh (highHalf value) _), store32_apply hlow]
      rfl

theorem load32_of_still (h : address % 4 = 0) (hstill : ¬bus.HasCounter address) :
    (load32 address : EStateM Exit Bus UInt32) bus = .ok (bus.peek address) bus := by
  unfold load32
  rw [if_pos h]
  change EStateM.Result.ok _ (bus.tick address) = _
  rw [tick_of_no_counter hstill]

theorem read_of_still (access : RegisterAccess) (h : 8 ∣ address.toNat)
    (hstill : bus.Still address) :
    (access.read address : EStateM Exit Bus UInt64) bus = .ok (bus.peek64 address) bus := by
  cases access with
  | whole =>
      unfold RegisterAccess.read load64
      dsimp only
      rw [if_pos (mod_eight_of_dvd h)]
      change EStateM.Result.ok _ (bus.tick address) = _
      rw [tick_of_no_counter hstill.1]
  | halves =>
      rcases halves_mod_four h with ⟨hlow, hhigh⟩
      have hload := load32_of_still hhigh hstill.2
      exact readHalves_of_steady hload (load32_of_still hlow hstill.1) hload

end Bus

namespace Mtimer

/-!
# Setting a compare register
-/

inductive Setting
  | arm (deadline : UInt64)
  | disarm
deriving DecidableEq

namespace Setting

def deadline : Setting → UInt64
  | arm deadline => deadline
  | disarm => disarmed

def run (config : Config) (hart : Nat) : Setting → EStateM Exit Bus Unit
  | arm deadline => config.arm hart deadline
  | disarm => config.disarm hart

end Setting

namespace Config

variable {config : Config} {hart other : Nat} {address register : UInt64}

/-- A register of the device that is none of the hart's own to set: the counter as some hart
sees it, or the compare register of another hart. -/
def Beside (config : Config) (hart : Nat) (register : UInt64) : Prop :=
  (∃ viewer, register = config.timeRegister viewer) ∨
    ∃ other, other ≠ hart ∧ config.compareRegister? other = some register

/-- Setting the compare register of a hart sets that register, provided that it stands still,
and changes no other one. -/
structure SetsAlone (config : Config) : Prop where
  served : ∀ (hart : Nat) (address : UInt64), config.compareRegister? hart = some address →
    ∀ (setting : Setting) (bus : Bus), ∃ after, setting.run config hart bus = .ok () after ∧
      (∀ register, config.Beside hart register → after.peek64 register = bus.peek64 register) ∧
      (bus.Still address →
        (config.compare hart : EStateM Exit Bus (Option UInt64)) after =
          .ok (some setting.deadline) after)
  unserved : ∀ hart, config.serves hart = false →
    ∀ (setting : Setting) (bus : Bus), setting.run config hart bus = .ok () bus

theorem compareRegister?_of_not_serves (hserves : config.serves hart = false) :
    config.compareRegister? hart = none := by
  rw [compareRegister?, if_neg]
  rw [hserves]
  exact Bool.false_ne_true

theorem run_of_not_serves (hserves : config.serves hart = false) (setting : Setting)
    (bus : Bus) : setting.run config hart bus = .ok () bus := by
  have harm (deadline : UInt64) :
      (config.arm hart deadline : EStateM Exit Bus Unit) bus = .ok () bus := by
    unfold arm
    rw [compareRegister?_of_not_serves hserves]
    rfl
  cases setting with
  | arm deadline => exact harm deadline
  | disarm => exact harm disarmed

theorem run_apply (hvalid : config.isValid = true)
    (haddress : config.compareRegister? hart = some address) (setting : Setting) (bus : Bus) :
    setting.run config hart bus =
      .ok () (bus.store config.access parkedCompare address setting.deadline) := by
  have harm (deadline : UInt64) : (config.arm hart deadline : EStateM Exit Bus Unit) bus =
      .ok () (bus.store config.access parkedCompare address deadline) := by
    unfold arm
    rw [haddress]
    have haligned := dvd_compareRegister hvalid haddress
    exact Bus.write_apply config.access parkedCompare haligned deadline bus
  cases setting with
  | arm deadline => exact harm deadline
  | disarm => exact harm disarmed

theorem dvd_of_beside (hvalid : config.isValid = true) (h : config.Beside hart register) :
    8 ∣ register.toNat := by
  rcases h with ⟨viewer, rfl⟩ | ⟨other, _, hregister⟩
  · exact dvd_timeRegister hvalid viewer
  · exact dvd_compareRegister hvalid hregister

theorem run_frame (hvalid : config.isValid = true)
    (haddress : config.compareRegister? hart = some address) (setting : Setting) (bus : Bus) :
    ∃ after, setting.run config hart bus = .ok () after ∧
      (∀ place, place ≠ address → place ≠ address + 4 → after.peek place = bus.peek place) ∧
      (∀ register, config.Beside hart register → after.peek64 register =
        if register = address then setting.deadline else bus.peek64 register) ∧
      (bus.Still address →
        (config.compare hart : EStateM Exit Bus (Option UInt64)) after =
          .ok (some setting.deadline) after) := by
  have haligned := dvd_compareRegister hvalid haddress
  refine ⟨_, run_apply hvalid haddress setting bus, ?_, ?_, ?_⟩
  · intro place hlow hhigh
    rw [Bus.peek_store, if_neg hlow, if_neg hhigh]
  · intro register hbeside
    exact bus.peek64_store _ _ _ haligned (dvd_of_beside hvalid hbeside)
  · intro hstill
    have hafter :
        (bus.store config.access parkedCompare address setting.deadline).Still address := by
      rw [Bus.store_of_still hstill]
      exact hstill
    unfold compare
    rw [haddress]
    dsimp only
    rw [bind_of_ok (Bus.read_of_still config.access haligned hafter),
      bus.peek64_store _ _ _ haligned haligned, if_pos rfl]
    rfl

theorem setsAlone_iff (hvalid : config.isValid = true) :
    config.SetsAlone ↔
      ∀ hart address, config.compareRegister? hart = some address →
        ¬config.Beside hart address := by
  constructor
  · intro halone hart address haddress hbeside
    rcases halone.served hart address haddress (.arm 1) {} with ⟨after, hrun, hframe, _⟩
    rcases run_frame hvalid haddress (.arm 1) {} with ⟨after', hrun', _, hchanged, _⟩
    rw [hrun] at hrun'
    cases hrun'
    -- On an empty bus the register would still hold zero, and one as well.
    have hzero : ({} : Bus).peek64 address = joinHalves 0 0 := rfl
    have hone : ({} : Bus).peek64 address = 1 := by
      rw [← hframe address hbeside, hchanged address hbeside, if_pos rfl]
      rfl
    rw [hzero] at hone
    exact absurd hone (by decide)
  · intro hapart
    refine ⟨fun hart address haddress setting bus => ?_, fun hart => run_of_not_serves⟩
    rcases run_frame hvalid haddress setting bus with ⟨after, hrun, _, hframe, hcompare⟩
    refine ⟨after, hrun, fun register hbeside => ?_, hcompare⟩
    have hne : register ≠ address := by
      intro hsame
      exact hapart hart address haddress (hsame ▸ hbeside)
    rw [hframe register hbeside, if_neg hne]

/-!
# Registers at one address
-/

def BlocksApart (base size other otherSize : UInt64) : Prop :=
  size ≤ other - base ∧ otherSize ≤ base - other

instance (base size other otherSize : UInt64) :
    Decidable (BlocksApart base size other otherSize) :=
  inferInstanceAs (Decidable (_ ∧ _))

theorem BlocksApart.add_ne {base size other otherSize place otherPlace : UInt64}
    (h : BlocksApart base size other otherSize) (hplace : place.toNat < size.toNat)
    (hother : otherPlace.toNat < otherSize.toNat) : base + place ≠ other + otherPlace := by
  intro hsame
  have hsum := congrArg UInt64.toNat hsame
  have hforward := UInt64.le_iff_toNat_le.mp h.1
  have hback := UInt64.le_iff_toNat_le.mp h.2
  have hbase := base.toNat_lt
  have hother' := other.toNat_lt
  rw [UInt64.toNat_sub] at hforward hback
  rw [UInt64.toNat_add, UInt64.toNat_add] at hsum
  omega

/-- The counters and the compare registers of all copies are apart from each other, and so are
the compare registers of different copies. -/
structure Separate (config : Config) : Prop where
  counters : ∀ copy ∈ config.offsets, ∀ other ∈ config.offsets,
    BlocksApart (config.timeBase + copy) config.timeSize (config.compareBase + other)
      config.compareSize
  copies : config.offsets.Pairwise fun copy other =>
    BlocksApart (config.compareBase + copy) config.compareSize (config.compareBase + other)
      config.compareSize

theorem BlocksApart.symm {base size other otherSize : UInt64}
    (h : BlocksApart base size other otherSize) : BlocksApart other otherSize base size :=
  And.symm h

theorem compareRegister?_eq_iff (h : config.Aligned) (hserves : config.serves hart = true)
    (hother : config.serves other = true) (hoffset : config.offset hart = config.offset other) :
    config.compareRegister? hart = config.compareRegister? other ↔
      config.place hart = config.place other := by
  rw [compareRegister?_of_serves hserves, compareRegister?_of_serves hother, hoffset,
    Option.some.injEq, UInt64.add_right_inj]
  constructor
  · intro hsame
    have hplaces := congrArg UInt64.toNat hsame
    have hplace := place_lt h hserves
    have hplace' := place_lt h hother
    have hcount := h.count
    have hlimit : hartLimit = 128 := rfl
    rw [UInt64.toNat_ofNat', UInt64.toNat_ofNat'] at hplaces
    omega
  · intro hsame
    rw [hsame]

theorem nodup_of_compareRegister?_ne (h : config.Aligned)
    (hapart : ∀ hart other,
      config.serves hart = true → config.serves other = true → other ≠ hart →
      config.compareRegister? other ≠ config.compareRegister? hart) :
    (config.windows.map (·.offset)).Nodup := by
  rw [DieWindow.nodup_offsets_iff h.windows]
  intro hart other hhart hother hcoincide
  have hserves := HartRange.contains_iff.mpr hhart
  have hserves' := HartRange.contains_iff.mpr hother
  rcases hcoincide.eq config.harts.first with ⟨hoffset, hplace⟩
  exact hapart other hart hserves' hserves hcoincide.ne
    ((compareRegister?_eq_iff h hserves hserves' hoffset).mpr hplace)

theorem Separate.compareRegister?_ne (h : config.Separate) (haligned : config.Aligned)
    (hserves : config.serves hart = true) (hother : config.serves other = true)
    (hne : other ≠ hart) : config.compareRegister? other ≠ config.compareRegister? hart := by
  have hplace := toNat_place_lt (place_lt haligned hserves) haligned.room
  have hplace' := toNat_place_lt (place_lt haligned hother) haligned.room
  by_cases hoffset : config.offset other = config.offset hart
  · rw [ne_eq, compareRegister?_eq_iff haligned hother hserves hoffset]
    intro hsame
    have hcoincide := DieWindow.coincide_of_eq haligned.windows
      (HartRange.contains_iff.mp hother).1 (HartRange.contains_iff.mp hserves).1 hne
        hoffset hsame
    have hnodup : config.offsets.Nodup := by
      apply h.copies.imp
      intro copy later hapart hcopy
      rw [hcopy] at hapart
      have hempty := UInt64.le_iff_toNat_le.mp hapart.1
      rw [UInt64.sub_self] at hempty
      exact absurd (Nat.lt_of_lt_of_le hplace hempty) (Nat.not_lt_zero _)
    exact (DieWindow.nodup_offsets_iff haligned.windows).mp (List.nodup_cons.mp hnodup).2
      other hart (HartRange.contains_iff.mp hother) (HartRange.contains_iff.mp hserves)
      hcoincide
  · rw [compareRegister?_of_serves hserves, compareRegister?_of_serves hother, ne_eq,
      Option.some.injEq]
    have hsymm : Std.Symm fun copy other =>
        BlocksApart (config.compareBase + copy) config.compareSize (config.compareBase + other)
          config.compareSize := ⟨fun _ _ => BlocksApart.symm⟩
    have hapart := h.copies.forall (config.offset_mem_offsets other)
      (config.offset_mem_offsets hart) hoffset
    exact hapart.add_ne hplace' hplace

theorem Separate.timeRegister_ne (h : config.Separate) (haligned : config.Aligned)
    (hserves : config.serves hart = true) (viewer : Nat) :
    config.compareRegister? hart ≠ some (config.timeRegister viewer) := by
  have hplace := toNat_place_lt (place_lt haligned hserves) haligned.room
  have hapart :=
    h.counters _ (config.offset_mem_offsets viewer) _ (config.offset_mem_offsets hart)
  have hne := hapart.add_ne (show (0 : UInt64).toNat < config.timeSize.toNat from
    haligned.timeSize_pos) hplace
  rw [UInt64.add_zero] at hne
  rw [compareRegister?_of_serves hserves, timeRegister_eq, ne_eq, Option.some.injEq]
  exact hne.symm

theorem Separate.setsAlone (h : config.Separate) (hvalid : config.isValid = true) :
    config.SetsAlone := by
  have haligned := aligned_of_isValid hvalid
  rw [setsAlone_iff hvalid]
  intro hart address haddress hbeside
  have hserves := serves_of_compareRegister? haddress
  rcases hbeside with ⟨viewer, rfl⟩ | ⟨other, hne, hother⟩
  · exact h.timeRegister_ne haligned hserves viewer haddress
  · exact h.compareRegister?_ne haligned hserves (serves_of_compareRegister? hother) hne
      (hother.trans haddress.symm)

theorem SetsAlone.nodup_offsets (h : config.SetsAlone) (hvalid : config.isValid = true) :
    (config.windows.map (·.offset)).Nodup := by
  apply nodup_of_compareRegister?_ne (aligned_of_isValid hvalid)
  intro hart other hserves _ hne hsame
  have haddress := compareRegister?_of_serves hserves
  exact (setsAlone_iff hvalid).mp h hart _ haddress (.inr ⟨other, hne, hsame.trans haddress⟩)

/-- Setting a compare register changes no other register of the device exactly if none lies at
its address.  That is so if the register blocks and their copies are apart, but not if two
windows have the same offset.  In any case the register is set, and what lies elsewhere stays
as it is. -/
theorem setting_frame (hvalid : config.isValid = true) :
    (config.SetsAlone ↔ ∀ hart address, config.compareRegister? hart = some address →
      ¬config.Beside hart address) ∧
      (config.Separate → config.SetsAlone) ∧
      (config.SetsAlone → (config.windows.map (·.offset)).Nodup) ∧
      (∀ hart, config.serves hart = false → ∀ (setting : Setting) (bus : Bus),
        setting.run config hart bus = .ok () bus) ∧
      ∀ hart address, config.compareRegister? hart = some address →
        ∀ (setting : Setting) (bus : Bus), ∃ after, setting.run config hart bus = .ok () after ∧
          (∀ place, place ≠ address → place ≠ address + 4 → after.peek place = bus.peek place) ∧
          (∀ register, config.Beside hart register → after.peek64 register =
            if register = address then setting.deadline else bus.peek64 register) ∧
          (bus.Still address →
            (config.compare hart : EStateM Exit Bus (Option UInt64)) after =
              .ok (some setting.deadline) after) := by
  refine ⟨setsAlone_iff hvalid, ?_, ?_, fun hart => run_of_not_serves, fun hart address => ?_⟩
  · exact fun h => h.setsAlone hvalid
  · exact fun h => h.nodup_offsets hvalid
  · exact run_frame hvalid

def threeDies (second third : UInt64) : Config :=
  { timeBase := 0x1000, timeSize := 8, compareBase := 0x2000, compareSize := 0x60
    frequency := 1000000, harts := ⟨0, 12⟩, supportsWhole := true, sharesTime := false
    windows := [⟨4, second⟩, ⟨8, third⟩] }

theorem setting_frame_threeDies :
    (threeDies 0x10000 0x20000).isValid = true ∧ (threeDies 0x10000 0x20000).SetsAlone := by
  have hvalid : (threeDies 0x10000 0x20000).isValid = true := by decide
  have hseparate : (threeDies 0x10000 0x20000).Separate := by
    have hoffsets : (threeDies 0x10000 0x20000).offsets = [0, 0x10000, 0x20000] := rfl
    constructor
    · rw [hoffsets]
      simp only [List.forall_mem_cons, List.not_mem_nil, false_imp_iff, implies_true, and_true]
      decide
    · decide
  exact ⟨hvalid, (setting_frame hvalid).2.1 hseparate⟩

/-- Two dies of a valid description have the same copy of the registers, so arming the timer of
one hart changes the compare register of another one. -/
theorem shared_compare_threeDies :
    (threeDies 0x10000 0x10000).isValid = true ∧
      (threeDies 0x10000 0x10000).serves 4 = true ∧
        (threeDies 0x10000 0x10000).serves 8 = true ∧
      ∃ after, Setting.run (threeDies 0x10000 0x10000) 4 (.arm 0x1234) {} = .ok () after ∧
        (threeDies 0x10000 0x10000).compareRegister? 8 = some 0x12000 ∧
        ({} : Bus).peek64 0x12000 = 0 ∧ after.peek64 0x12000 = 0x1234 := by
  have hvalid : (threeDies 0x10000 0x10000).isValid = true := by decide
  have hregister : (threeDies 0x10000 0x10000).compareRegister? 4 = some 0x12000 := by decide
  have hrun := run_apply hvalid hregister (.arm 0x1234) {}
  refine ⟨hvalid, rfl, rfl, _, hrun, by decide, by decide, ?_⟩
  rw [Bus.peek64_store _ _ _ _ (by decide) (by decide), if_pos rfl]
  rfl

end Config
end Mtimer
end Interhart
