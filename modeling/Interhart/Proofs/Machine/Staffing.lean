import Interhart.Proofs.Machine.Changes

/-!
# Bound harts in order

A driver of timer devices binds harts only to a device that is valid and serves them.  This
holds however its calls end, and also where it is the log that breaks them off.
-/

namespace Interhart

namespace Mtimer

/-- Harts are bound to valid devices that serve them. -/
def Staffed (configs : List Config) (table : HartTable Nat) : Prop :=
  ∀ hart number, table.get? hart = some number →
    ∃ config, configs[number]? = some config ∧ config.isValid = true ∧ config.serves hart = true

theorem Staffed.assign {configs : List Config} {table : HartTable Nat} {config : Config}
    {number : Nat} (h : Staffed configs table) (hconfig : configs[number]? = some config)
    (hvalid : config.isValid = true) : Staffed configs (table.assign config.harts number) := by
  intro hart found hfound
  rw [HartTable.get?_assign] at hfound
  split at hfound
  · cases hfound
    exact ⟨config, hconfig, hvalid, ‹_›⟩
  · exact h hart found hfound

theorem map_config_modify {change : Device → Device} (h : ∀ d, (change d).config = d.config)
    (devices : List Device) (number : Nat) :
    (devices.modify number change).map (·.config) = devices.map (·.config) := by
  apply List.ext_getElem?
  intro place
  rw [List.getElem?_map, List.getElem?_modify, List.getElem?_map]
  cases devices[place]? with
  | none => rfl
  | some device =>
      by_cases hplace : number = place
      · simp [hplace, h]
      · simp [hplace]

end Mtimer

namespace Bench

def Staffed (driver : DriverId) (b : Bench) : Prop :=
  Mtimer.Staffed (b.mtimers.map (·.config)) (b.mtimerDrivers driver).devices

theorem Staffed.exists_device {driver : DriverId} {b : Bench} (h : Staffed driver b)
    {hart number : Nat} (hbound : (b.mtimerDrivers driver).devices.get? hart = some number) :
    ∃ device, b.mtimers[number]? = some device ∧ device.config.isValid = true ∧
      device.config.serves hart = true := by
  rcases h hart number hbound with ⟨config, hconfig, hvalid, hserves⟩
  rw [List.getElem?_map] at hconfig
  rcases Option.map_eq_some_iff.mp hconfig with ⟨device, hdevice, rfl⟩
  exact ⟨device, hdevice, hvalid, hserves⟩

structure Mustered (driver : DriverId) (number : Nat) (config : Mtimer.Config) (b : Bench) :
    Prop where
  staffed : Staffed driver b
  described : (b.mtimers.map (·.config))[number]? = some config

namespace Mustered

variable {driver : DriverId} {number : Nat} {config : Mtimer.Config} {b b' : Bench}

theorem keeping (h : Mustered driver number config b)
    (hconfigs : b'.mtimers.map (·.config) = b.mtimers.map (·.config))
    (hdevices : (b'.mtimerDrivers driver).devices = (b.mtimerDrivers driver).devices) :
    Mustered driver number config b' := by
  constructor
  · rw [Staffed, hconfigs, hdevices]
    exact h.staffed
  · rw [hconfigs]
    exact h.described

theorem alike (h : Mustered driver number config b) (halike : Alike b b') :
    Mustered driver number config b' := by
  rcases halike with ⟨_, _, _, _, _, rfl⟩
  exact h.keeping rfl rfl

theorem assigning (h : Mustered driver number config b) (hvalid : config.isValid = true) :
    Mustered driver number config
      (b.assigning driver ((b.mtimerDrivers driver).devices.assign config.harts number)) := by
  refine ⟨?_, h.described⟩
  unfold Staffed Bench.assigning
  dsimp only
  rw [if_pos rfl]
  exact h.staffed.assign h.described hvalid

theorem logging (entry : LogRecord) : Keeps (Mustered driver number config) (log entry) :=
  (Passive.logging entry).keeping fun _ _ halike h => h.alike halike

theorem protecting (base size : UInt64) (largest : Nat) :
    Keeps (Mustered driver number config) (protectRange base size largest) :=
  keeps_protectRange logging fun _ _ _ _ _ h => h.keeping rfl rfl

theorem following (reference : Nat) :
    Keeps (Mustered driver number config) (setReference number reference) := by
  refine (keeps_mtimer number).bind fun device => ?_
  split
  · exact logging _
  · refine Keeps.modifying fun b h => h.keeping ?_ rfl
    have hconfig (d : Mtimer.Device) : (d.following reference).config = d.config := rfl
    exact Mtimer.map_config_modify hconfig _ _

theorem announcing :
    Keeps (Mustered driver number config) (do
      setMtimerDriver driver fun d =>
        { d with frequency := if d.frequency = 0 then config.frequency else d.frequency }
      log config.boundRecord
      registerTimer (.mtimer driver) Mtimer.Driver.name) := by
  refine Keeps.bind (.modifying fun b h => h.keeping rfl ?_) fun _ =>
    (logging _).bind fun _ => ?_
  · dsimp only
    rw [if_pos rfl]
  · refine Contract.get_bind fun b h => Keeps.changed (h.keeping rfl rfl) ?_
    split
    · exact logging _
    · exact .value ()

theorem contract_mtimer (driver : DriverId) (number : Nat) :
    Contract (Staffed driver) (mtimer number)
      (fun device => Mustered driver number device.config) fun _ => Staffed driver := by
  apply Contract.get_bind
  intro b hb
  cases hdevice : b.mtimers[number]? with
  | none =>
      rintro _ rfl
      exact hb
  | some device =>
      rintro _ rfl
      refine ⟨hb, ?_⟩
      rw [List.getElem?_map, hdevice, Option.map_some]

theorem contract_validate :
    Contract (Mustered driver number config) (orRefuse config.validate)
      (fun _ b => Mustered driver number config b ∧ config.isValid = true)
      fun _ => Mustered driver number config := by
  refine Contract.orRefuse (fun _ hvalidate b hb => ⟨hb, ?_⟩) fun _ _ _ hb => hb
  by_contra hinvalid
  rw [Mtimer.Config.validate, if_neg hinvalid] at hvalidate
  cases hvalidate

end Mustered

theorem keeps_staffed_bindMtimer (driver : DriverId) (number : Nat) (reference : Option Nat) :
    Keeps (Staffed driver) (bindMtimer driver number reference) := by
  refine (Mustered.contract_mtimer driver number).bind fun device => ?_
  suffices hrest : Keeps (Mustered driver number device.config) _ from
    hrest.weaken (fun _ hb => hb) (fun _ _ hb => hb.staffed) fun _ _ hb => hb.staffed
  refine Mustered.contract_validate.bind fun _ => Contract.assuming fun hvalid => ?_
  refine (Checks.keeping fun _ => checks_requireSameFrequency _ _).bind fun _ => ?_
  refine Keeps.looking fun b _ => ?_
  refine (Checks.keeping fun _ => checks_requireVacant _ _).bind fun _ => ?_
  refine Keeps.bind ?_ fun ranges => ?_
  · cases device.config.ranges with
    | ok ranges => exact .value ranges
    | error fault => exact .exit _
  refine Keeps.bind (.forM fun range _ => Mustered.protecting _ _ _) fun _ => ?_
  refine keeps_claim (fun b => (b.mtimerDrivers driver).devices) fun b hb _ => ?_
  refine Keeps.changed (hb.assigning hvalid) ?_
  cases reference with
  | none => exact Mustered.announcing
  | some followed => exact (Mustered.following followed).bind fun _ => Mustered.announcing

end Bench

theorem Bindings.staffed {driver : DriverId} {start m : Machine} {accepted : List Nat}
    (hempty : ∀ hart, (start.outside.mtimerDrivers driver).devices.get? hart = none)
    (h : Bindings (.mtimer driver) start accepted m) : Bench.Staffed driver m.outside := by
  have hrun {binding : Binding} (hbinder : binding.binder = .mtimer driver) :
      Keeps (fun m : Machine => Bench.Staffed driver m.outside) binding.run := by
    cases binding with
    | mswi other number => cases hbinder
    | mtimer other number reference =>
        cases hbinder
        exact Ipi.keeps_onOutside (fun _ hm => hm) (fun _ _ _ hb => hb)
          (Bench.keeps_staffed_bindMtimer _ _ _)
  induction h with
  | begin =>
      intro hart number hbound
      rw [hempty hart] at hbound
      cases hbound
  | accepted _ hbinder hok ih => exact (hrun hbinder).of_ok ih hok
  | ended _ hbinder herror ih => exact (hrun hbinder).of_error ih herror
  | elsewhere _ hdevices htable ih =>
      unfold Bench.Staffed at ih ⊢
      rw [hdevices.mtimers, show (_ : Mtimer.Driver).devices = _ from htable]
      exact ih

end Interhart
