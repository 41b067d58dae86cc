import Interhart.Machine.Timer
import Interhart.Proofs.Machine.Binding

/-!
# Whom a driver reaches

While no log is kept, a driver binds a hart to a device exactly if it has taken the device on
and the device serves the hart.  A hart that is bound stays bound, and whatever the driver is
asked to do for a hart is done by the device to which the hart is bound.
-/

namespace Interhart

def Binder.Serves (b : Bench) (binder : Binder) (number hart : Nat) : Prop :=
  ∃ harts, binder.harts? b number = some harts ∧ harts.contains hart = true

namespace Bench

namespace SameDevices

variable {a b c : Bench}

theorem refl (b : Bench) : SameDevices b b := ⟨rfl, rfl, rfl⟩

theorem trans (h : SameDevices a b) (h' : SameDevices b c) : SameDevices a c :=
  ⟨h'.mswis.trans h.mswis, h'.mtimers.trans h.mtimers, h'.logger.trans h.logger⟩

theorem harts? (h : SameDevices a b) (binder : Binder) (number : Nat) :
    binder.harts? b number = binder.harts? a number := by
  cases binder with
  | mswi driver => rw [Binder.harts?, Binder.harts?, h.mswis]
  | mtimer driver => rw [Binder.harts?, Binder.harts?, h.mtimers]

theorem isValid (h : SameDevices a b) (binder : Binder) (number : Nat) :
    binder.isValid b number = binder.isValid a number := by
  cases binder with
  | mswi driver => rw [Binder.isValid, Binder.isValid, h.mswis]
  | mtimer driver => rw [Binder.isValid, Binder.isValid, h.mtimers]

theorem serves_iff (h : SameDevices a b) {binder : Binder} {number hart : Nat} :
    binder.Serves b number hart ↔ binder.Serves a number hart := by
  unfold Binder.Serves
  rw [h.harts?]

end SameDevices

theorem Unbound.same {b b' : Bench} {asked : List Region} {sound : Prop} {exit : Exit}
    (h : Unbound b asked sound exit b') (hoff : b.logger.isOff = true) (binder : Binder) :
    SameDevices b b' ∧ binder.table b' = binder.table b := by
  cases h with
  | early domain hgrown halike hrefused =>
      rcases halike with ⟨_, _, _, _, _, rfl⟩
      cases binder with
      | mswi driver => exact ⟨⟨rfl, rfl, rfl⟩, rfl⟩
      | mtimer driver => exact ⟨⟨rfl, rfl, rfl⟩, rfl⟩
  | late hunlogged =>
      rw [hunlogged.logs] at hoff
      cases hoff

theorem Bound.get?_iff {binder : Binder} {number : Nat} {b b' : Bench}
    (h : Bound binder number b b') {hart found : Nat} :
    (binder.table b').get? hart = some found ↔
      (found = number ∧ binder.Serves b number hart) ∨ (binder.table b).get? hart =
        some found := by
  rcases h.assigned with ⟨harts, hharts, hvacant, htable⟩
  have hserves : binder.Serves b number hart ↔ harts.contains hart = true := by
    unfold Binder.Serves
    rw [hharts]
    simp
  rw [htable, HartTable.get?_assign, hserves]
  by_cases hcontains : harts.contains hart = true
  · have hfree := (HartTable.isVacant_iff.mp hvacant).2 hart hcontains
    rw [if_pos hcontains, hfree]
    simp [hcontains, eq_comm]
  · rw [if_neg hcontains]
    simp [hcontains]

theorem Bound.get?_eq_none {binder : Binder} {number : Nat} {b b' : Bench}
    (h : Bound binder number b b') {hart : Nat} (hserves : binder.Serves b number hart) :
    (binder.table b).get? hart = none := by
  rcases h.assigned with ⟨harts, hharts, hvacant, _⟩
  rcases hserves with ⟨found, hfound, hcontains⟩
  rw [hharts] at hfound
  cases hfound
  exact (HartTable.isVacant_iff.mp hvacant).2 hart hcontains

structure Tabled (binder : Binder) (start : Bench) (accepted : List Nat) (b : Bench) :
    Prop where
  devices : SameDevices start b
  bound : ∀ hart number, (binder.table b).get? hart = some number ↔
    number ∈ accepted ∧ binder.Serves start number hart
  valid : ∀ number ∈ accepted, binder.isValid start number = true
  disjoint : accepted.Pairwise fun later earlier =>
    ∀ hart, binder.Serves start later hart → ¬binder.Serves start earlier hart

namespace Tabled

variable {binder : Binder} {start b b' : Bench} {accepted : List Nat}

theorem empty (h : ∀ hart, (binder.table start).get? hart = none) :
    Tabled binder start [] start := by
  refine ⟨.refl start, ?_, ?_, .nil⟩
  · intro hart number
    simp [h hart]
  · simp

theorem keeping (h : Tabled binder start accepted b) (hdevices : SameDevices b b')
    (htable : binder.table b' = binder.table b) : Tabled binder start accepted b' := by
  refine ⟨h.devices.trans hdevices, ?_, h.valid, h.disjoint⟩
  rw [htable]
  exact h.bound

theorem binding (h : Tabled binder start accepted b) {number : Nat}
    (hbound : Bound binder number b b') : Tabled binder start (number :: accepted) b' := by
  constructor
  · exact h.devices.trans hbound.devices
  · intro hart found
    rw [hbound.get?_iff, h.bound, h.devices.serves_iff, List.mem_cons]
    constructor
    · intro hfound
      rcases hfound with ⟨rfl, hserves⟩ | ⟨hmem, hserves⟩
      · exact ⟨.inl rfl, hserves⟩
      · exact ⟨.inr hmem, hserves⟩
    · intro hfound
      rcases hfound with ⟨rfl | hmem, hserves⟩
      · exact .inl ⟨rfl, hserves⟩
      · exact .inr ⟨hmem, hserves⟩
  · intro found hmem
    rcases List.mem_cons.mp hmem with rfl | hmem
    · rw [← h.devices.isValid]
      exact hbound.valid
    · exact h.valid found hmem
  · refine List.pairwise_cons.mpr ⟨?_, h.disjoint⟩
    intro earlier hmem hart hlater hearlier
    have hfree := hbound.get?_eq_none (h.devices.serves_iff.mpr hlater)
    have htaken := (h.bound hart earlier).mpr ⟨hmem, hearlier⟩
    rw [hfree] at htaken
    cases htaken

end Tabled
end Bench

/-- Calls of one driver, successful or not, with whatever goes on between them: it leaves the
driver's table, the devices and the logger alone, but may change all else, the domain for one.
The list tells which devices the driver has taken on, the latest first. -/
inductive Bindings (binder : Binder) (start : Machine) : List Nat → Machine → Prop
  | begin : Bindings binder start [] start
  | accepted {accepted : List Nat} {m after : Machine} {binding : Binding}
      (h : Bindings binder start accepted m) (hbinder : binding.binder = binder)
      (hrun : binding.run m = .ok () after) :
      Bindings binder start (binding.number :: accepted) after
  | ended {accepted : List Nat} {m after : Machine} {binding : Binding} {exit : Exit}
      (h : Bindings binder start accepted m) (hbinder : binding.binder = binder)
      (hrun : binding.run m = .error exit after) : Bindings binder start accepted after
  | elsewhere {accepted : List Nat} {m after : Machine} (h : Bindings binder start accepted m)
      (hdevices : Bench.SameDevices m.outside after.outside)
      (htable : binder.table after.outside = binder.table m.outside) :
      Bindings binder start accepted after

namespace Bindings

variable {binder : Binder} {start m : Machine} {accepted : List Nat}

theorem same_of_error {binding : Binding} {m after : Machine} {exit : Exit}
    (hoff : m.outside.logger.isOff = true) (hrun : binding.run m = .error exit after) :
    Bench.SameDevices m.outside after.outside ∧
      binding.binder.table after.outside = binding.binder.table m.outside := by
  rcases (binding.contract_run m).of_error rfl hrun with ⟨_, hunbound⟩ | hunlogged
  · exact hunbound.same hoff binding.binder
  · rw [hunlogged.logs] at hoff
    cases hoff

theorem tabled (hoff : start.outside.logger.isOff = true)
    (hempty : ∀ hart, (binder.table start.outside).get? hart = none)
    (h : Bindings binder start accepted m) :
    Bench.Tabled binder start.outside accepted m.outside := by
  induction h with
  | begin => exact .empty hempty
  | accepted h hbinder hrun ih =>
      subst hbinder
      exact ih.binding ((Binding.contract_run _ _).of_ok rfl hrun)
  | ended h hbinder hrun ih =>
      subst hbinder
      rw [← ih.devices.logger] at hoff
      rcases same_of_error hoff hrun with ⟨hdevices, htable⟩
      exact ih.keeping hdevices htable
  | elsewhere h hdevices htable ih => exact ih.keeping hdevices htable

theorem keeps (hoff : start.outside.logger.isOff = true) (h : Bindings binder start accepted m)
    {hart number : Nat} (hbound : (binder.table start.outside).get? hart = some number) :
    m.outside.logger.isOff = true ∧ (binder.table m.outside).get? hart = some number := by
  induction h with
  | begin => exact ⟨hoff, hbound⟩
  | accepted h hbinder hrun ih =>
      subst hbinder
      rcases ih with ⟨hoff', hbound'⟩
      have hnew := (Binding.contract_run _ _).of_ok rfl hrun
      refine ⟨?_, hnew.get?_iff.mpr (.inr hbound')⟩
      rw [hnew.devices.logger]
      exact hoff'
  | ended h hbinder hrun ih =>
      subst hbinder
      rcases ih with ⟨hoff', hbound'⟩
      rcases same_of_error hoff' hrun with ⟨hdevices, htable⟩
      rw [hdevices.logger, htable]
      exact ⟨hoff', hbound'⟩
  | elsewhere h hdevices htable ih =>
      rw [hdevices.logger, htable]
      exact ih

end Bindings

/-!
# Operations of a driver
-/

namespace Machine

open Bench

theorem onOutside_congr {α : Type} {step step' : BenchM α} {m : Machine}
    (h : step m.outside = step' m.outside) :
    (Ipi.onOutside step : MachineM α) m = Ipi.onOutside step' m := by
  cases hrun : step m.outside with
  | ok calls outside => rw [Ipi.onOutside_of_ok hrun, Ipi.onOutside_of_ok (h ▸ hrun)]
  | error exit outside => rw [Ipi.onOutside_of_error hrun, Ipi.onOutside_of_error (h ▸ hrun)]

theorem interrupting_congr {step step' : BenchM (List Ipi.Call)} {m : Machine}
    (h : step m.outside = step' m.outside) : interrupting step m = interrupting step' m := by
  change EStateM.bind (Ipi.onOutside step) handle m =
    EStateM.bind (Ipi.onOutside step') handle m
  unfold EStateM.bind
  rw [onOutside_congr h]

theorem collect_write32 (address : UInt64) (value : UInt32) (b : Bench) :
    collect (WritesRegisters.write32 address value) b = write32 address value b := by
  cases hwrite : write32 address value b with
  | ok calls b' =>
      have hcollecting : (WritesRegisters.write32 address value : Collecting Unit) [] b =
          .ok ((), [] ++ calls) b' := bind_of_ok hwrite
      exact bind_of_ok hcollecting
  | error exit b' =>
      have hcollecting : (WritesRegisters.write32 address value : Collecting Unit) [] b =
          .error exit b' := bind_of_error hwrite
      exact bind_of_error hcollecting

theorem interrupting_collect_write (config : Mswi.Config) (hart : Nat) (value : UInt32)
    (m : Machine) :
    interrupting (collect (config.write hart value)) m =
      (config.write hart value : MachineM Unit) m := by
  unfold Mswi.Config.write
  cases config.register? hart with
  | none => rfl
  | some address =>
      dsimp only
      unfold store32
      by_cases haligned : address % 4 = 0
      · rw [if_pos haligned, if_pos haligned]
        exact interrupting_congr (collect_write32 address value m.outside)
      · rw [if_neg haligned, if_neg haligned]
        rfl

theorem discard_collect_clear (config : Mswi.Config) (hart : Nat) (m : Machine) :
    Ipi.onOutside (discard (collect (config.clear hart))) m =
      (config.clear hart : MachineM Unit) m := by
  unfold Mswi.Config.clear Mswi.Config.write
  cases config.register? hart with
  | none => rfl
  | some address =>
      dsimp only
      unfold store32
      by_cases haligned : address % 4 = 0
      · rw [if_pos haligned, if_pos haligned]
        rfl
      · rw [if_neg haligned, if_neg haligned]
        rfl

end Machine

/-- What a driver is asked to do for a hart is done by the device of this number, which serves
the hart; without a device nothing is done, and the time is zero. -/
def Binder.Reaches (m : Machine) (hart : Nat) : Binder → Option Nat → Prop
  | mswi driver, some number =>
      ∃ config, m.outside.mswis[number]? = some config ∧ config.serves hart = true ∧
        Machine.driverRaise driver hart m = (config.raise hart : MachineM Unit) m ∧
        (Ipi.onOutside (Bench.driverClear driver hart) : MachineM Unit) m =
          (config.clear hart : MachineM Unit) m
  | mswi driver, none =>
      Machine.driverRaise driver hart m = .ok () m ∧
        (Ipi.onOutside (Bench.driverClear driver hart) : MachineM Unit) m = .ok () m
  | mtimer driver, some number =>
      ∃ device, m.outside.mtimers[number]? = some device ∧ device.config.serves hart = true ∧
        Bench.driverTime driver hart m.outside =
          (device.config.time hart : BenchM UInt64) m.outside ∧
        (∀ deadline, Machine.driverArm driver hart deadline m =
          (device.config.arm hart deadline : MachineM Unit) m) ∧
        Machine.driverDisarm driver hart m = (device.config.disarm hart : MachineM Unit) m
  | mtimer driver, none =>
      Bench.driverTime driver hart m.outside = .ok 0 m.outside ∧
        (∀ deadline, Machine.driverArm driver hart deadline m = .ok () m) ∧
        Machine.driverDisarm driver hart m = .ok () m

namespace Binder

open Bench

theorem reaches_mswi {m : Machine} {driver : DriverId} {hart number : Nat}
    (hbound : (m.outside.mswiDrivers driver).devices.get? hart = some number)
    (hserves : (mswi driver).Serves m.outside number hart) :
    (mswi driver).Reaches m hart (some number) := by
  rcases hserves with ⟨harts, hharts, hcontains⟩
  rcases Option.map_eq_some_iff.mp hharts with ⟨config, hconfig, rfl⟩
  refine ⟨config, hconfig, hcontains, ?_, ?_⟩
  · have hraise : Bench.driverRaise driver hart m.outside =
        collect (config.raise hart) m.outside := by
      unfold Bench.driverRaise
      rw [bind_of_ok (mswiServing_apply driver hart m.outside), hbound]
      exact bind_of_ok (mswi_of_some hconfig)
    exact (Machine.interrupting_congr hraise).trans
      (Machine.interrupting_collect_write config hart 1 m)
  · have hclear : Bench.driverClear driver hart m.outside =
        discard (collect (config.clear hart)) m.outside := by
      unfold Bench.driverClear
      rw [bind_of_ok (mswiServing_apply driver hart m.outside), hbound]
      exact bind_of_ok (mswi_of_some hconfig)
    exact (Machine.onOutside_congr hclear).trans (Machine.discard_collect_clear config hart m)

theorem reaches_mtimer {m : Machine} {driver : DriverId} {hart number : Nat}
    (hbound : (m.outside.mtimerDrivers driver).devices.get? hart = some number)
    (hserves : (mtimer driver).Serves m.outside number hart) :
    (mtimer driver).Reaches m hart (some number) := by
  rcases hserves with ⟨harts, hharts, hcontains⟩
  rcases Option.map_eq_some_iff.mp hharts with ⟨config, hconfig, rfl⟩
  rw [List.getElem?_map] at hconfig
  rcases Option.map_eq_some_iff.mp hconfig with ⟨device, hdevice, rfl⟩
  have harm (deadline : UInt64) : Machine.driverArm driver hart deadline m =
      (device.config.arm hart deadline : MachineM Unit) m := by
    unfold Machine.driverArm
    rw [bind_of_ok (Ipi.onOutside_of_ok (mtimerServing_apply driver hart m.outside)), hbound]
    exact bind_of_ok (Ipi.onOutside_of_ok (mtimer_of_some hdevice))
  refine ⟨device, hdevice, hcontains, ?_, harm, harm Mtimer.disarmed⟩
  unfold Bench.driverTime
  rw [bind_of_ok (mtimerServing_apply driver hart m.outside), hbound]
  exact bind_of_ok (mtimer_of_some hdevice)

theorem reaches_none {binder : Binder} {m : Machine} {hart : Nat}
    (hfree : (binder.table m.outside).get? hart = none) : binder.Reaches m hart none := by
  cases binder with
  | mswi driver =>
      have hserving : (m.outside.mswiDrivers driver).devices.get? hart = none := hfree
      have hraise : Bench.driverRaise driver hart m.outside = .ok [] m.outside := by
        unfold Bench.driverRaise
        rw [bind_of_ok (mswiServing_apply driver hart m.outside), hserving]
        rfl
      have hclear : Bench.driverClear driver hart m.outside = .ok () m.outside := by
        unfold Bench.driverClear
        rw [bind_of_ok (mswiServing_apply driver hart m.outside), hserving]
        rfl
      exact ⟨bind_of_ok (Ipi.onOutside_of_ok hraise), Ipi.onOutside_of_ok hclear⟩
  | mtimer driver =>
      have hserving : (m.outside.mtimerDrivers driver).devices.get? hart = none := hfree
      have harm (deadline : UInt64) : Machine.driverArm driver hart deadline m = .ok () m := by
        unfold Machine.driverArm
        rw [bind_of_ok (Ipi.onOutside_of_ok (mtimerServing_apply driver hart m.outside)),
          hserving]
        rfl
      refine ⟨?_, harm, harm Mtimer.disarmed⟩
      unfold Bench.driverTime
      rw [bind_of_ok (mtimerServing_apply driver hart m.outside), hserving]
      rfl

theorem reaches {binder : Binder} {m : Machine}
    (h : ∀ hart number, (binder.table m.outside).get? hart = some number →
      binder.Serves m.outside number hart) (hart : Nat) :
    binder.Reaches m hart ((binder.table m.outside).get? hart) := by
  cases hbound : (binder.table m.outside).get? hart with
  | none => exact reaches_none hbound
  | some number =>
      have hserves := h hart number hbound
      cases binder with
      | mswi driver => exact reaches_mswi hbound hserves
      | mtimer driver => exact reaches_mtimer hbound hserves

end Binder

namespace Bindings

/-- What a driver that began with an empty table has come to, while no log is kept: which
device each hart is bound to, that the devices are valid and serve different harts, what a
further call does if it succeeds, that no hart is bound anew, and whom the driver reaches. -/
theorem bound_iff_accepted {binder : Binder} {start m : Machine} {accepted : List Nat}
    (hoff : start.outside.logger.isOff = true)
    (hempty : ∀ hart, (binder.table start.outside).get? hart = none)
    (h : Bindings binder start accepted m) :
    (∀ hart number, (binder.table m.outside).get? hart = some number ↔
      number ∈ accepted ∧ binder.Serves m.outside number hart) ∧
    (∀ number ∈ accepted, binder.isValid m.outside number = true) ∧
    (accepted.Pairwise fun later earlier =>
      ∀ hart, binder.Serves m.outside later hart → ¬binder.Serves m.outside earlier hart) ∧
    (∀ (binding : Binding) (after : Machine), binding.binder = binder →
      binding.run m = .ok () after →
      ∀ hart, binder.Serves m.outside binding.number hart →
        (binder.table m.outside).get? hart = none ∧
          (binder.table after.outside).get? hart = some binding.number) ∧
    (∀ more (later : Machine), Bindings binder m more later → ∀ hart number,
      (binder.table m.outside).get? hart = some number →
        (binder.table later.outside).get? hart = some number) ∧
    ∀ hart, binder.Reaches m hart ((binder.table m.outside).get? hart) := by
  have htabled := h.tabled hoff hempty
  have hserves (number hart : Nat) :
      binder.Serves m.outside number hart ↔ binder.Serves start.outside number hart :=
    htabled.devices.serves_iff
  have hbound (hart number : Nat) : (binder.table m.outside).get? hart = some number ↔
      number ∈ accepted ∧ binder.Serves m.outside number hart := by
    rw [htabled.bound, hserves]
  refine ⟨hbound, ?_, ?_, ?_, ?_, ?_⟩
  · intro number hmem
    rw [htabled.devices.isValid]
    exact htabled.valid number hmem
  · simpa only [hserves] using htabled.disjoint
  · intro binding after hbinder hrun hart hserved
    subst hbinder
    have hnew := (binding.contract_run m).of_ok rfl hrun
    exact ⟨hnew.get?_eq_none hserved, hnew.get?_iff.mpr (.inl ⟨rfl, hserved⟩)⟩
  · intro more later hmore hart number hnumber
    rw [← htabled.devices.logger] at hoff
    exact (hmore.keeps hoff hnumber).2
  · exact Binder.reaches fun hart number hnumber => ((hbound hart number).mp hnumber).2

def trioMachine : Machine :=
  { outside :=
    { mtimers :=
        [{ config := ⟨0x1000, 8, 0x2000, 16, 1000, ⟨0, 2⟩, true, false, []⟩ },
          { config := ⟨0x3000, 8, 0x4000, 16, 1000, ⟨1, 2⟩, true, false, []⟩ },
          { config := ⟨0x5000, 8, 0x6000, 16, 1000, ⟨2, 2⟩, false, false, [⟨3, 0x100⟩]⟩ }] } }

def boundTrio (driver : DriverId) : Machine :=
  finalState (Binding.mtimer driver 2 (some 0)).run
    (finalState (Binding.mtimer driver 1 none).run
      (finalState (Binding.mtimer driver 0 none).run trioMachine))

theorem bindings_boundTrio : Bindings (.mtimer 0) trioMachine [2, 0] (boundTrio 0) := by
  have hfirst : Bindings (.mtimer 0) trioMachine [0] _ :=
    accepted begin rfl (ok_of_succeeds (by decide +kernel :
      succeeds (Binding.mtimer 0 0 none).run trioMachine = true))
  have hsecond : Bindings (.mtimer 0) trioMachine [0] _ :=
    ended hfirst rfl (error_of_exit? (by decide +kernel :
      exit? (Binding.mtimer 0 1 none).run _ = some (.refused .invalidArgument)))
  exact accepted hsecond rfl (ok_of_succeeds (by decide +kernel :
    succeeds (Binding.mtimer 0 2 (some 0)).run _ = true))

theorem bound_iff_accepted_boundTrio :
    ((Binder.mtimer 0).table (boundTrio 0).outside).get? 1 = some 0 ∧
      (Binder.mtimer 0).Reaches (boundTrio 0) 3 (some 2) ∧
      (Binder.mtimer 0).Reaches (boundTrio 0) 4 none := by
  rcases bound_iff_accepted rfl (fun _ => rfl) bindings_boundTrio with
    ⟨hbound, _, _, _, _, hreaches⟩
  have hthird : ((Binder.mtimer 0).table (boundTrio 0).outside).get? 3 = some 2 :=
    (hbound 3 2).mpr ⟨by decide, ⟨2, 2⟩, by decide +kernel, by decide⟩
  have hfree : ((Binder.mtimer 0).table (boundTrio 0).outside).get? 4 =
      none := by decide +kernel
  refine ⟨(hbound 1 0).mpr ⟨by decide, ⟨0, 2⟩, by decide +kernel, by decide⟩, ?_, ?_⟩
  · rw [← hthird]
    exact hreaches 3
  · rw [← hfree]
    exact hreaches 4

end Bindings
end Interhart
