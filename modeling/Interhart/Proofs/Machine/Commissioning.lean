import Interhart.Machine.Board
import Interhart.Proofs.Machine.AlignedOnce
import Interhart.Proofs.Machine.Changes
import Interhart.Proofs.Machine.DriverTable

/-!
# How a board commissions its timer devices

A board binds its timer devices one by one, and all but one of them follow that one.
Afterwards each hart that comes up aligns its device, if that is still due, and switches its
compare register off.  Neither step disturbs what the other devices know of their alignment.
-/

namespace Interhart

def Mtimer.Config.device (config : Config) (reference : Option Nat) (delta : Option UInt64) :
    Device :=
  { config := config, reference := reference, aligned := delta.isSome, delta := delta }

/-- The counter of a device is moved by the difference that its samples tell, with
the registers as they are to begin with: what is written is its last reading,
moved by that difference. -/
def Mtimer.Config.MovesBy (config reference : Config) (hart : Nat) (bus : Bus) (moved : UInt64)
    (writes : List Entry) : Prop :=
  ∃ b last sampled, b.bus = bus ∧ config.Sampled reference hart b moved last sampled ∧
    writes = config.access.writes parkedTime (config.timeRegister hart) (last + moved)

namespace Bench

open Machine (boardDriver)

/-- What a device follows once it is one of the first devices of a board, which are bound.  The
device `lead` follows none. -/
def leadFor (lead count number : Nat) : Option Nat :=
  if number < count ∧ number ≠ lead then some lead else none

theorem leadFor_succ_of_ne {lead count number : Nat} (h : number ≠ count) :
    leadFor lead (count + 1) number = leadFor lead count number := by
  have hiff : number < count + 1 ∧ number ≠ lead ↔ number < count ∧ number ≠ lead := by omega
  unfold leadFor
  simp only [hiff]

theorem leadFor_self (lead count : Nat) : leadFor lead count count = none :=
  if_neg fun h => absurd h.1 (Nat.lt_irrefl count)

theorem leadFor_succ_self (lead count : Nat) :
    leadFor lead (count + 1) count = if count = lead then none else some lead := by
  unfold leadFor
  by_cases h : count = lead
  · simp [h]
  · simp [h]

/-- The bench once the first devices of a board are bound, and some of them have been moved. -/
structure Commissioned (lead : Nat) (configs : List Mtimer.Config) (count : Nat)
    (delta : Nat → Option UInt64) (b : Bench) : Prop where
  devices : ∀ number, b.mtimers[number]? =
    configs[number]?.map fun config : Mtimer.Config =>
      config.device (leadFor lead count number) (delta number)
  table : ∀ hart number, (b.mtimerDrivers boardDriver).devices.get? hart = some number ↔
    number < count ∧ ∃ config, configs[number]? = some config ∧ config.serves hart = true
  valid : ∀ number config, number < count → configs[number]? = some config →
    config.isValid = true
  sameFrequency : ∀ number config leader, number < count → number ≠ lead →
    configs[number]? = some config → configs[lead]? = some leader →
    leader.frequency = config.frequency
  timer : b.timer = if count = 0 then none else some (.mtimer boardDriver)
  untrapped : ∀ config ∈ configs, config.Untrapped b
  off : b.logger.isOff = true
  present : lead < configs.length

namespace Commissioned

variable {lead count number hart : Nat} {configs : List Mtimer.Config} {config : Mtimer.Config}
  {delta : Nat → Option UInt64} {b b' : Bench}

theorem configs_eq (h : Commissioned lead configs count delta b) :
    b.mtimers.map (·.config) = configs := by
  apply List.ext_getElem?
  intro number
  rw [List.getElem?_map, h.devices, Option.map_map]
  exact Option.map_id'

theorem getElem? (h : Commissioned lead configs count delta b)
    (hconfig : configs[number]? = some config) :
    b.mtimers[number]? = some (config.device (leadFor lead count number) (delta number)) := by
  rw [h.devices, hconfig]
  rfl

theorem delta?_eq {m : Machine} (h : Commissioned lead configs count delta m.outside)
    (hconfig : configs[number]? = some config) : m.delta? number = delta number := by
  rw [Machine.delta?, h.getElem? hconfig]
  rfl

theorem serves_iff (h : Commissioned lead configs count delta b) :
    (Binder.mtimer boardDriver).Serves b number hart ↔
      ∃ config, configs[number]? = some config ∧ config.serves hart = true := by
  unfold Binder.Serves Binder.harts?
  rw [h.configs_eq]
  constructor
  · rintro ⟨harts, hharts, hcontains⟩
    rcases Option.map_eq_some_iff.mp hharts with ⟨config, hconfig, rfl⟩
    exact ⟨config, hconfig, hcontains⟩
  · rintro ⟨config, hconfig, hserves⟩
    exact ⟨config.harts, by rw [hconfig]; rfl, hserves⟩

/-!
# Binding the devices
-/

theorem getElem?_following (h : Commissioned lead configs count (fun _ => none) b)
    (number : Nat) :
    (b.following count (leadFor lead (count + 1) count)).mtimers[number]? =
      configs[number]?.map fun config : Mtimer.Config =>
        config.device (leadFor lead (count + 1) number) none := by
  by_cases hnumber : number = count
  · subst hnumber
    rw [leadFor_succ_self]
    by_cases hlead : number = lead
    · rw [if_pos hlead]
      change b.mtimers[number]? = _
      rw [h.devices, leadFor_self]
    · rw [if_neg hlead]
      change (if number = lead then b.mtimers else _)[number]? = _
      rw [if_neg hlead, List.getElem?_modify_eq, h.devices, leadFor_self]
      cases configs[number]? with
      | none => rfl
      | some config => rfl
  · rw [leadFor_succ_of_ne hnumber, getElem?_following_of_ne _ _ _ hnumber]
    exact h.devices number

theorem get?_table_of_bound (h : Commissioned lead configs count (fun _ => none) b)
    (hbound : Bound (.mtimer boardDriver) count b b') (hart number : Nat) :
    (b'.mtimerDrivers boardDriver).devices.get? hart = some number ↔
      number < count + 1 ∧
        ∃ config, configs[number]? = some config ∧ config.serves hart = true := by
  refine hbound.get?_iff.trans ?_
  rw [h.serves_iff]
  change _ ∨ (b.mtimerDrivers boardDriver).devices.get? hart = some number ↔ _
  rw [h.table, Nat.lt_succ_iff_lt_or_eq]
  constructor
  · rintro (⟨rfl, hserves⟩ | ⟨hlt, hserves⟩)
    · exact ⟨.inr rfl, hserves⟩
    · exact ⟨.inl hlt, hserves⟩
  · rintro ⟨hlt | rfl, hserves⟩
    · exact .inr ⟨hlt, hserves⟩
    · exact .inl ⟨rfl, hserves⟩

section Enrolled

variable {device : Mtimer.Device} (h : Commissioned lead configs count (fun _ => none) b)
  (henrolled : Enrolled boardDriver count (leadFor lead (count + 1) count) device b b')

include h henrolled

theorem config_of_enrolled : configs[count]? = some device.config := by
  rw [← h.configs_eq, List.getElem?_map, henrolled.found]
  rfl

theorem valid_of_enrolled (hlt : number < count + 1) (hfound : configs[number]? = some config) :
    config.isValid = true := by
  rcases Nat.lt_succ_iff_lt_or_eq.mp hlt with hearlier | rfl
  · exact h.valid number config hearlier hfound
  · cases (h.config_of_enrolled henrolled).symm.trans hfound
    exact henrolled.valid

theorem sameFrequency_of_enrolled {leader : Mtimer.Config} (hlt : number < count + 1)
    (hne : number ≠ lead) (hfound : configs[number]? = some config)
    (hleader : configs[lead]? = some leader) : leader.frequency = config.frequency := by
  rcases Nat.lt_succ_iff_lt_or_eq.mp hlt with hearlier | rfl
  · exact h.sameFrequency number config leader hearlier hne hfound hleader
  · cases (h.config_of_enrolled henrolled).symm.trans hfound
    rcases henrolled.sameFrequency lead (by rw [leadFor_succ_self, if_neg hne]) with
      ⟨followed, hfollowed, hsame⟩
    cases (h.getElem? hleader).symm.trans hfollowed
    exact hsame

end Enrolled

theorem binding (h : Commissioned lead configs count (fun _ => none) b)
    (hrun : bindMtimer boardDriver count (leadFor lead (count + 1) count) b = .ok () b') :
    Commissioned lead configs (count + 1) (fun _ => none) b' ∧
      b'.trace.filter Entry.isWrite = b.trace.filter Entry.isWrite := by
  have hbound := (contract_bindMtimer id).of_ok rfl hrun
  rcases ok_of_bindMtimer hrun with ⟨device, henrolled⟩
  rcases henrolled.left with ⟨domain, halike⟩
  rcases b.enrolling_surroundings boardDriver count (leadFor lead (count + 1) count)
      device.config domain with ⟨hscript, hlogger, htrace⟩
  refine ⟨⟨?_, h.get?_table_of_bound hbound, fun _ _ => h.valid_of_enrolled henrolled,
    fun _ _ _ => h.sameFrequency_of_enrolled henrolled, ?_, ?_, ?_, h.present⟩, ?_⟩
  · intro number
    rw [← h.getElem?_following number]
    rcases halike with ⟨_, _, _, _, _, rfl⟩
    change (b.enrolling _ _ _ _ _).mtimers[number]? = _
    rw [mtimers_enrolling]
  · rcases halike with ⟨_, _, _, _, _, rfl⟩
    change (b.enrolling _ _ _ _ _).timer = _
    rw [timer_enrolling, h.timer]
    by_cases hfirst : count = 0
    · simp [hfirst]
    · simp [hfirst]
  · intro config hmem
    refine config.lasting_untrapped.alike halike ?_
    unfold Mtimer.Config.Untrapped Untrapped
    rw [hscript]
    exact h.untrapped config hmem
  · rcases halike with ⟨_, _, _, _, _, rfl⟩
    rw [← h.off, ← hlogger]
  · rw [halike.filter_trace, htrace]

/-!
# Moving a counter
-/

theorem lasting (lead : Nat) (configs : List Mtimer.Config) (count : Nat)
    (delta : Nat → Option UInt64) : Lasting (Commissioned lead configs count delta) :=
  fun _ _ _ _ _ _ _ h =>
    ⟨h.devices, h.table, h.valid, h.sameFrequency, h.timer, h.untrapped, h.off, h.present⟩

theorem moving (h : Commissioned lead configs count delta b) (hopen : delta number = none)
    (moved : UInt64) :
    Commissioned lead configs count (Function.update delta number (some moved))
      ((b.beginning number).adjusting number moved) := by
  refine { h with devices := fun place => ?_ }
  change ((b.mtimers.modify number _).modify number _)[place]? = _
  by_cases hplace : place = number
  · subst hplace
    rw [List.getElem?_modify_eq, List.getElem?_modify_eq, h.devices, hopen,
      Function.update_self]
    cases configs[place]? with
    | none => rfl
    | some config => rfl
  · rw [List.getElem?_modify_ne _ _ (Ne.symm hplace),
      List.getElem?_modify_ne _ _ (Ne.symm hplace), h.devices, Function.update_of_ne hplace]

end Commissioned

end Bench

namespace Machine

open Bench

variable {lead number hart : Nat} {configs : List Mtimer.Config} {config : Mtimer.Config}
  {delta : Nat → Option UInt64} {m after : Machine}

theorem isDue_device_iff {count : Nat} {moved : Option UInt64} (hlt : number < count) :
    (config.device (leadFor lead count number) moved).IsDue ↔
      number ≠ lead ∧ config.sharesTime = false ∧ moved = none := by
  have hlead : leadFor lead count number ≠ none ↔ number ≠ lead := by
    unfold leadFor
    simp [hlt]
  have haligned : moved.isSome = false ↔ moved = none := by
    rw [Option.isSome_eq_false_iff, Option.isNone_iff_eq_none]
  exact and_congr hlead (and_congr Iff.rfl haligned)

theorem commissioned_of_sync (h : Commissioned lead configs configs.length delta m.outside)
    (hconfig : configs[number]? = some config) (hne : number ≠ lead)
    (hown : config.sharesTime = false) (hopen : delta number = none) {answer : Bool}
    (hrun : sync number hart m = .ok answer after) :
    ∃ leader moved writes, configs[lead]? = some leader ∧
      config.MovesBy leader hart m.outside.bus moved writes ∧
      Commissioned lead configs configs.length (Function.update delta number (some moved))
        after.outside ∧
      after.outside.trace.filter Entry.isWrite =
        writes.reverse ++ m.outside.trace.filter Entry.isWrite := by
  have hlt := (List.getElem?_eq_some_iff.mp hconfig).1
  have hvalid := h.valid number config hlt hconfig
  have hdue := (isDue_device_iff hlt).mpr ⟨hne, hown, hopen⟩
  rcases ok_of_sync (h.getElem? hconfig) hdue hrun with ⟨_, reference, followed, moved, last,
    sampled, written, outside, hreference, hfollowed, hsampled, hset, hlog, rfl⟩
  have hbegun := hsampled.alike
  have hsafe := config.lasting_untrapped.alike hbegun
    (h.untrapped config (List.mem_of_getElem? hconfig))
  change (config.setTime hart (last + moved) : MachineM Unit) _ = _ at hset
  rw [Mtimer.Config.setTime_of_untrapped hvalid (hsafe hart).1] at hset
  cases hset
  rw [Ipi.System.outside_within]
  have hlogged := (Passive.logging _ _).of_ok (.refl _) hlog
  have hpresent := h.present
  have hleader := List.getElem?_eq_getElem hpresent
  have hlead : leadFor lead configs.length number = some lead := if_pos ⟨hlt, hne⟩
  cases hlead.symm.trans hreference
  have hfound : followed.config = configs[lead] :=
    config_eq_of_beginning (h.getElem? hleader) hfollowed
  rw [hfound] at hsampled
  refine ⟨_, moved, _, hleader, ⟨m.outside.beginning number, last, sampled, rfl, hsampled, rfl⟩,
    (Commissioned.lasting _ _ _ _).alike hlogged ?_, ?_⟩
  · have hmoved := h.moving hopen moved
    rcases hbegun with ⟨_, _, _, _, _, rfl⟩
    exact (Commissioned.lasting _ _ _ _) _ _ _ _ _ _ (List.Subset.refl _) hmoved
  · rw [hlogged.filter_trace]
    change (List.reverse _ ++ sampled.trace).filter Entry.isWrite = _
    rw [List.filter_append, hbegun.filter_trace, List.filter_reverse,
      RegisterAccess.filter_writes]
    rfl

theorem commissioned_of_disarm (h : Commissioned lead configs configs.length delta m.outside)
    (hconfig : configs[number]? = some config)
    (hrun : (config.disarm hart : MachineM Unit) m = .ok () after) :
    Commissioned lead configs configs.length delta after.outside ∧
      after.outside.trace.filter Entry.isWrite =
        (config.armWrites hart Mtimer.disarmed).reverse ++
          m.outside.trace.filter Entry.isWrite := by
  have hvalid := h.valid number config (List.getElem?_eq_some_iff.mp hconfig).1 hconfig
  have huntrapped := h.untrapped config (List.mem_of_getElem? hconfig) hart
  unfold Mtimer.Config.disarm at hrun
  rw [Mtimer.Config.arm_of_untrapped hvalid huntrapped.2] at hrun
  cases hrun
  constructor
  · rw [Ipi.System.outside_within]
    unfold Mtimer.Config.armed
    cases config.compareRegister? hart with
    | none => exact h
    | some address =>
        exact (Commissioned.lasting _ _ _ _) _ _ _ _ _ _ (List.Subset.refl _) h
  · rw [Ipi.System.outside_within, config.trace_armed, List.filter_append, List.filter_reverse,
      config.filter_armWrites]

/-- A hart that comes up moves the counter of its device if that is still due, and leaves all
other counters alone.  Last of all it switches its compare register off. -/
theorem commissioned_of_bringUp (h : Commissioned lead configs configs.length delta m.outside)
    (hconfig : configs[number]? = some config) (hserves : config.serves hart = true)
    (hrun : driverBringUpTimer boardDriver hart m = .ok () after) :
    ∃ delta' moving,
      Commissioned lead configs configs.length delta' after.outside ∧
      after.outside.trace.filter Entry.isWrite =
        (moving ++ config.armWrites hart Mtimer.disarmed).reverse ++
          m.outside.trace.filter Entry.isWrite ∧
      (∀ other, other ≠ number → delta' other = delta other) ∧
      (number ≠ lead ∧ config.sharesTime = false ∧ delta number = none →
        ∃ leader moved, configs[lead]? = some leader ∧ delta' number = some moved ∧
          config.MovesBy leader hart m.outside.bus moved moving) ∧
      (¬(number ≠ lead ∧ config.sharesTime = false ∧ delta number = none) →
        delta' number = delta number ∧ moving = []) := by
  have hlt := (List.getElem?_eq_some_iff.mp hconfig).1
  have hbound := (h.table hart number).mpr ⟨hlt, config, hconfig, hserves⟩
  rcases ok_of_driverBringUpTimer hbound hrun with
    ⟨answer, between, device, hsync, hdevice, hdisarm⟩
  by_cases hdue : number ≠ lead ∧ config.sharesTime = false ∧ delta number = none
  · rcases commissioned_of_sync h hconfig hdue.1 hdue.2.1 hdue.2.2 hsync with
      ⟨leader, moved, writes, hleader, hmoves, hmoved, htrace⟩
    cases (hmoved.getElem? hconfig).symm.trans hdevice
    rcases commissioned_of_disarm hmoved hconfig hdisarm with ⟨hafter, hwrites⟩
    refine ⟨_, writes, hafter, ?_, ?_, ?_, fun hidle => absurd hdue hidle⟩
    · rw [hwrites, htrace, List.reverse_append, List.append_assoc]
    · exact fun other hother => Function.update_of_ne hother _ _
    · exact fun _ => ⟨leader, moved, hleader, Function.update_self _ _ _, hmoves⟩
  · have hidle := (isDue_device_iff hlt).not.mpr hdue
    cases (sync_of_idle (h.getElem? hconfig) hidle).symm.trans hsync
    cases (h.getElem? hconfig).symm.trans hdevice
    rcases commissioned_of_disarm h hconfig hdisarm with ⟨hafter, hwrites⟩
    exact ⟨delta, [], hafter, hwrites, fun _ _ => rfl, fun hopen => absurd hopen hdue,
      fun _ => ⟨rfl, rfl⟩⟩

theorem exhausted_of_bringUp (h : Commissioned lead configs configs.length delta m.outside)
    (hconfig : configs[number]? = some config) (hserves : config.serves hart = true)
    {exit : Exit}
    (hrun : driverBringUpTimer boardDriver hart m = .error exit after) : exit = .exhausted := by
  have hlt := (List.getElem?_eq_some_iff.mp hconfig).1
  have hvalid := h.valid number config hlt hconfig
  have hbound := (h.table hart number).mpr ⟨hlt, config, hconfig, hserves⟩
  have hready : Ready number config (leadFor lead configs.length number) m.outside := by
    refine ⟨⟨_, h.getElem? hconfig, rfl, rfl⟩, fun place hplace => ?_,
      h.untrapped config (List.mem_of_getElem? hconfig), h.off⟩
    unfold leadFor at hplace
    split at hplace
    · cases hplace
      have hleader := List.getElem?_eq_getElem h.present
      exact ⟨_, h.getElem? hleader, h.valid lead _ h.present hleader⟩
    · cases hplace
  exact (Returns.contract_bringUp hvalid boardDriver).of_error ⟨hready, hbound⟩ hrun

theorem bringUp_of_unserved (h : Commissioned lead configs configs.length delta m.outside)
    (hunserved : ∀ config ∈ configs, config.serves hart = false) :
    driverBringUpTimer boardDriver hart m = .error (.refused .noDevice) m := by
  have hfree : (m.outside.mtimerDrivers boardDriver).devices.get? hart = none := by
    by_contra hbound
    rcases Option.ne_none_iff_exists'.mp hbound with ⟨number, hnumber⟩
    rcases (h.table hart number).mp hnumber with ⟨_, config, hconfig, hserves⟩
    rw [hunserved config (List.mem_of_getElem? hconfig)] at hserves
    cases hserves
  unfold driverBringUpTimer
  rw [bind_of_ok (Ipi.onOutside_of_ok (mtimerServing_apply boardDriver hart m.outside)), hfree]
  rfl

/-!
# Booting
-/

section Registered

variable {count : Nat} (h : Commissioned lead configs count delta m.outside)
  (hcount : 0 < count)

include h hcount

theorem requireTimer_of_commissioned : requireTimer m = .ok (.mtimer boardDriver) m := by
  unfold requireTimer
  rw [get_bind, h.timer, if_neg (Nat.ne_of_gt hcount)]
  rfl

theorem bringUpTimer_of_commissioned :
    bringUpTimer hart m = driverBringUpTimer boardDriver hart m :=
  bind_of_ok (requireTimer_of_commissioned h hcount)

end Registered

end Machine

namespace Bench

open Machine (boardDriver)

/-- A board with a time reference, as it is before any hart has booted and while no log is
kept.  No hart is interrupted by a write to a register of a timer device. -/
structure Fresh (lead : Nat) (configs : List Mtimer.Config) (b : Bench) : Prop where
  devices : b.mtimers = configs.map fun config => { config := config }
  reference : b.board.timeReference = some lead
  present : lead < configs.length
  driver : b.mtimerDrivers boardDriver = {}
  timer : b.timer = none
  untrapped : ∀ config ∈ configs, config.Untrapped b
  off : b.logger.isOff = true

namespace Fresh

variable {lead : Nat} {configs : List Mtimer.Config} {b : Bench}

theorem length_mtimers (h : Fresh lead configs b) : b.mtimers.length = configs.length := by
  rw [h.devices, List.length_map]

theorem referenceOf_eq (h : Fresh lead configs b) (number : Nat) :
    Machine.referenceOf b number = leadFor lead (number + 1) number := by
  have hpresent := h.present
  unfold Machine.referenceOf
  rw [h.reference, h.length_mtimers, leadFor_succ_self]
  by_cases hself : number = lead
  · simp [hself, hpresent]
  · simp [Option.filter, hpresent, hself, Ne.symm hself]

theorem commissioned (h : Fresh lead configs b) :
    Commissioned lead configs 0 (fun _ => none) b := by
  refine ⟨?_, ?_, ?_, ?_, h.timer, h.untrapped, h.off, h.present⟩
  · intro number
    rw [h.devices, List.getElem?_map]
    rfl
  · intro hart number
    rw [h.driver]
    simp
  · exact fun _ _ hlt => absurd hlt (Nat.not_lt_zero _)
  · exact fun _ _ _ hlt => absurd hlt (Nat.not_lt_zero _)

end Fresh

end Bench

namespace Machine

open Bench

variable {lead hart : Nat} {configs : List Mtimer.Config} {m after : Machine}

theorem bootTimer_cold (hart : Nat) :
    bootTimer hart true = (do
      let b := (← get).outside
      (List.range b.mtimers.length).forM fun number =>
        Ipi.onOutside (bindMtimer boardDriver number (referenceOf b number))
      discard requireTimer
      bringUpTimer hart) := rfl

theorem bootTimer_warm (hart : Nat) : bootTimer hart false = bringUpTimer hart := rfl

/-- The first devices of a board are bound, and no register has been
written to since `start`. -/
structure Enlisted (start : Machine) (lead : Nat) (configs : List Mtimer.Config) (count : Nat)
    (m : Machine) : Prop where
  commissioned : Commissioned lead configs count (fun _ => none) m.outside
  bus : m.outside.bus = start.outside.bus
  writes : m.outside.trace.filter Entry.isWrite = start.outside.trace.filter Entry.isWrite

theorem Enlisted.binding {start : Machine} (hfresh : Fresh lead configs start.outside)
    (count : Nat) :
    Contract (Enlisted start lead configs count)
      (Ipi.onOutside (bindMtimer boardDriver count (referenceOf start.outside count)))
      (fun _ => Enlisted start lead configs (count + 1)) fun _ _ => True := by
  refine Contract.succeeding fun s _ t hs hbind => ?_
  rw [hfresh.referenceOf_eq] at hbind
  rcases Ipi.ok_of_onOutside hbind with ⟨outside, houtside, rfl⟩
  rcases hs.commissioned.binding houtside with ⟨hbound, hwrites⟩
  have hbus := ((steady_bus _).bindingMtimer boardDriver count _).of_ok
    ⟨hs.commissioned.off, hs.bus⟩ houtside
  exact ⟨hbound, hbus.2, hwrites.trans hs.writes⟩

theorem ok_of_bootTimer (h : Fresh lead configs m.outside)
    (hrun : bootTimer hart true m = .ok () after) :
    ∃ bound, Enlisted m lead configs configs.length bound ∧
      driverBringUpTimer boardDriver hart bound = .ok () after := by
  have hloop := Contract.forM_range' 0 configs.length fun count _ _ => Enlisted.binding h count
  rw [Nat.zero_add, ← List.range_eq_range'] at hloop
  rw [bootTimer_cold, get_bind] at hrun
  rw [h.length_mtimers] at hrun
  rcases ok_of_bind_ok hrun with ⟨_, bound, hbind, hrest⟩
  have hbound := hloop.of_ok ⟨h.commissioned, rfl, rfl⟩ hbind
  have hcount : 0 < configs.length := Nat.zero_lt_of_lt h.present
  have hrequire : (discard requireTimer : MachineM Unit) bound = .ok () bound :=
    bind_of_ok (requireTimer_of_commissioned hbound.commissioned hcount)
  rw [bind_of_ok hrequire, bringUpTimer_of_commissioned hbound.commissioned hcount] at hrest
  exact ⟨bound, hbound, hrest⟩

end Machine
end Interhart
