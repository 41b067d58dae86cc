import Interhart.Machine.Command
import Interhart.Proofs.Machine.Commissioning

/-!
# The timers of a board as its harts boot

The hart that boots cold binds all timer devices, of which all but one follow that one.  From
then on each device with a counter of its own is aligned once, by the first hart it serves, and
every hart that is served has its timer switched off.
-/

namespace Interhart

open Machine (boardDriver)

/-- A call by which a hart of a board has brought its timer up, or has failed to. -/
structure Boot where
  hart : Nat
  before : Machine
  report : Machine.Report
  after : Machine

def Machine.boot (m : Machine) (hart : Nat) (cold : Bool) : Boot where
  hart := hart
  before := m
  report := (m.step (.board (.bootTimer hart cold))).1
  after := (m.step (.board (.bootTimer hart cold))).2

/-- What goes on between the calls leaves the timer devices alone.  Registers may change, and
so may all else. -/
structure Bench.SameTimers (b b' : Bench) : Prop where
  mtimers : b'.mtimers = b.mtimers
  driver : b'.mtimerDrivers boardDriver = b.mtimerDrivers boardDriver
  timer : b'.timer = b.timer
  logger : b'.logger = b.logger
  traps : b'.script.atAddress = b.script.atAddress

theorem Bench.SameTimers.commissioned {lead count : Nat} {configs : List Mtimer.Config}
    {delta : Nat → Option UInt64} {b b' : Bench} (h : SameTimers b b')
    (hcommissioned : Commissioned lead configs count delta b) :
    Commissioned lead configs count delta b' := by
  refine { hcommissioned with
    devices := ?_, table := ?_, timer := ?_, untrapped := ?_, off := ?_ }
  · rw [h.mtimers]
    exact hcommissioned.devices
  · rw [h.driver]
    exact hcommissioned.table
  · rw [h.timer]
    exact hcommissioned.timer
  · unfold Mtimer.Config.Untrapped Untrapped
    rw [h.traps]
    exact hcommissioned.untrapped
  · rw [h.logger]
    exact hcommissioned.off

/-- The harts of a board boot, the latest first: one boots cold and succeeds, all others boot
warm.  No call is held up by a register that cannot be read. -/
inductive Boots (start : Machine) : List Boot → Machine → Prop
  | cold {hart : Nat} {answer : Answer}
      (hreturns : (start.boot hart true).report.outcome = .ok answer) :
      Boots start [start.boot hart true] (start.boot hart true).after
  | warm {boots : List Boot} {m : Machine} {hart : Nat} (h : Boots start boots m)
      (hreads : (m.boot hart false).report.outcome ≠ .error .exhausted) :
      Boots start (m.boot hart false :: boots) (m.boot hart false).after
  | elsewhere {boots : List Boot} {m after : Machine} (h : Boots start boots m)
      (htimers : Bench.SameTimers m.outside after.outside) : Boots start boots after

namespace Boot

/-- The call is the one that aligns a device: the device has a counter of its own, is not the
one that all others follow, and serves the hart, but none that has booted earlier. -/
def Moves (boot : Boot) (lead : Nat) (earlier : List Boot) (number : Nat)
    (config : Mtimer.Config) : Prop :=
  number ≠ lead ∧ config.sharesTime = false ∧ config.serves boot.hart = true ∧
    ∀ other ∈ earlier, config.serves other.hart = false

/-- What a call has done, among the timer devices of a board and after
other harts have booted. -/
structure Explained (boot : Boot) (configs : List Mtimer.Config) (lead : Nat)
    (earlier : List Boot) : Prop where
  returns_iff : (∃ answer, boot.report.outcome = .ok answer) ↔
    ∃ config ∈ configs, config.serves boot.hart = true
  refused : (∀ config ∈ configs, config.serves boot.hart = false) →
    boot.report.outcome = .error (.refused .noDevice) ∧ boot.report.trace = []
  moved : ∀ number config, configs[number]? = some config →
    boot.Moves lead earlier number config →
      boot.before.delta? number = none ∧ ∃ moved, boot.after.delta? number = some moved
  kept : ∀ number config, configs[number]? = some config →
    ¬boot.Moves lead earlier number config →
      boot.after.delta? number = boot.before.delta? number
  writes : ∀ number config, configs[number]? = some config → config.serves boot.hart = true →
    ∃ moving register, config.compareRegister? boot.hart = some register ∧
      boot.report.trace.filter Entry.isWrite = moving ++
        config.access.writes Mtimer.parkedCompare register Mtimer.disarmed ∧
      (boot.Moves lead earlier number config → ∃ leader moved, configs[lead]? = some leader ∧
        boot.after.delta? number = some moved ∧
        config.MovesBy leader boot.hart boot.before.outside.bus moved moving) ∧
      (¬boot.Moves lead earlier number config → moving = [])

/-- The devices that have been moved are those that the harts so far have aligned. -/
def MovedBy (configs : List Mtimer.Config) (lead : Nat) (boots : List Boot)
    (delta : Nat → Option UInt64) : Prop :=
  ∀ number config, configs[number]? = some config →
    (delta number ≠ none ↔ number ≠ lead ∧ config.sharesTime = false ∧
      ∃ boot ∈ boots, config.serves boot.hart = true)

variable {lead number : Nat} {configs : List Mtimer.Config} {config : Mtimer.Config}
  {delta : Nat → Option UInt64} {earlier : List Boot} {boot : Boot}

theorem MovedBy.nil (configs : List Mtimer.Config) (lead : Nat) :
    MovedBy configs lead [] (fun _ => none) := by
  intro number config _
  simp

theorem MovedBy.moves_iff (h : MovedBy configs lead earlier delta)
    (hconfig : configs[number]? = some config) (hserves : config.serves boot.hart = true) :
    boot.Moves lead earlier number config ↔
      number ≠ lead ∧ config.sharesTime = false ∧ delta number = none := by
  have hdelta := h number config hconfig
  unfold Moves
  constructor
  · rintro ⟨hne, hown, _, hnone⟩
    refine ⟨hne, hown, ?_⟩
    by_contra hmoved
    rcases hdelta.mp hmoved with ⟨_, _, other, hmem, hother⟩
    rw [hnone other hmem] at hother
    cases hother
  · rintro ⟨hne, hown, hopen⟩
    refine ⟨hne, hown, hserves, fun other hmem => ?_⟩
    by_contra hother
    rw [Bool.not_eq_false] at hother
    exact hdelta.mpr ⟨hne, hown, other, hmem, hother⟩ hopen

theorem eq_of_serves {b : Bench} (h : Bench.Commissioned lead configs configs.length delta b)
    {hart other : Nat} {config' : Mtimer.Config} (hconfig : configs[number]? = some config)
    (hserves : config.serves hart = true) (hconfig' : configs[other]? = some config')
    (hserves' : config'.serves hart = true) : number = other := by
  have hfirst := (h.table hart number).mpr
    ⟨(List.getElem?_eq_some_iff.mp hconfig).1, config, hconfig, hserves⟩
  have hsecond := (h.table hart other).mpr
    ⟨(List.getElem?_eq_some_iff.mp hconfig').1, config', hconfig', hserves'⟩
  exact Option.some.inj (hfirst.symm.trans hsecond)

theorem MovedBy.cons {b : Bench} {delta' : Nat → Option UInt64}
    (h : MovedBy configs lead earlier delta)
    (hcommissioned : Bench.Commissioned lead configs configs.length delta b)
    (hconfig : configs[number]? = some config) (hserves : config.serves boot.hart = true)
    (hothers : ∀ other, other ≠ number → delta' other = delta other)
    (hmoved : boot.Moves lead earlier number config → delta' number ≠ none)
    (hkept : ¬boot.Moves lead earlier number config → delta' number = delta number) :
    MovedBy configs lead (boot :: earlier) delta' := by
  intro place found hfound
  by_cases hplace : place = number
  · subst hplace
    cases hconfig.symm.trans hfound
    have hboots : (∃ other ∈ boot :: earlier, config.serves other.hart = true) ↔ True :=
      iff_true_intro ⟨boot, List.mem_cons_self, hserves⟩
    rw [hboots, and_true]
    by_cases hmoves : boot.Moves lead earlier place config
    · exact iff_of_true (hmoved hmoves) ⟨hmoves.1, hmoves.2.1⟩
    · rw [hkept hmoves]
      rw [h.moves_iff hconfig hserves] at hmoves
      have hdelta := h place config hconfig
      tauto
  · have hunserved : found.serves boot.hart = false := by
      by_contra hserved
      rw [Bool.not_eq_false] at hserved
      exact hplace (eq_of_serves hcommissioned hfound hserved hconfig hserves)
    rw [hothers place hplace, h place found hfound]
    simp [hunserved]

theorem exists_compareRegister {hart : Nat} (hserves : config.serves hart = true) :
    ∃ register, config.compareRegister? hart = some register ∧
      config.armWrites hart Mtimer.disarmed =
        config.access.writes Mtimer.parkedCompare register Mtimer.disarmed := by
  unfold Mtimer.Config.armWrites Mtimer.Config.compareRegister?
  rw [if_pos hserves]
  exact ⟨_, rfl, rfl⟩

theorem explained_of_bringUp {before bound after : Machine} {hart : Nat}
    (h : Bench.Commissioned lead configs configs.length delta bound.outside)
    (hmovedBy : MovedBy configs lead earlier delta)
    (hbefore : ∀ number config, configs[number]? = some config →
      before.delta? number = delta number)
    (hbus : bound.outside.bus = before.outside.bus)
    (hsilent : bound.outside.trace.filter Entry.isWrite = [])
    (hconfig : configs[number]? = some config) (hserves : config.serves hart = true)
    (hrun : Machine.driverBringUpTimer boardDriver hart bound = .ok () after) :
    let boot : Boot :=
      ⟨hart, before, ⟨.ok .done, after.outside.trace.reverse, after.outside.output⟩, after⟩
    boot.Explained configs lead earlier ∧
      ∃ delta', Bench.Commissioned lead configs configs.length delta' after.outside ∧
        MovedBy configs lead (boot :: earlier) delta' := by
  intro boot
  rcases Machine.commissioned_of_bringUp h hconfig hserves hrun with
    ⟨delta', moving, hafter, hwrites, hothers, hmoved, hkept⟩
  have hmoves : boot.Moves lead earlier number config ↔ _ := hmovedBy.moves_iff hconfig hserves
  rw [← hmoves] at hmoved hkept
  have honly {place : Nat} {found : Mtimer.Config} (hfound : configs[place]? = some found)
      (hserved : found.serves hart = true) : place = number ∧ found = config := by
    have hplace := eq_of_serves h hfound hserved hconfig hserves
    rw [hplace, hconfig] at hfound
    exact ⟨hplace, (Option.some.inj hfound).symm⟩
  refine ⟨⟨?_, ?_, ?_, ?_, ?_⟩, delta', hafter, ?_⟩
  · exact iff_of_true ⟨.done, rfl⟩ ⟨config, List.mem_of_getElem? hconfig, hserves⟩
  · intro hunserved
    rw [hunserved config (List.mem_of_getElem? hconfig)] at hserves
    cases hserves
  · intro place found hfound hnow
    rcases honly hfound hnow.2.2.1 with ⟨rfl, rfl⟩
    rw [hbefore place found hfound, hafter.delta?_eq hfound]
    rcases hmoved hnow with ⟨_, moved, _, hsome, _⟩
    exact ⟨(hmoves.mp hnow).2.2, moved, hsome⟩
  · intro place found hfound hrests
    rw [hbefore place found hfound, hafter.delta?_eq hfound]
    by_cases hplace : place = number
    · subst hplace
      cases hconfig.symm.trans hfound
      exact (hkept hrests).1
    · exact hothers place hplace
  · intro place found hfound hserved
    rcases honly hfound hserved with ⟨rfl, rfl⟩
    rcases exists_compareRegister hserved with ⟨register, hregister, harm⟩
    refine ⟨moving, register, hregister, ?_, fun hnow => ?_, fun hrests => (hkept hrests).2⟩
    · change after.outside.trace.reverse.filter Entry.isWrite = _
      rw [List.filter_reverse, hwrites, hsilent, List.append_nil, List.reverse_reverse, harm]
    · rw [hafter.delta?_eq hfound, ← hbus]
      exact hmoved hnow
  · refine hmovedBy.cons h hconfig hserves hothers (fun hnow => ?_) fun hrests =>
      (hkept hrests).1
    rcases hmoved hnow with ⟨_, moved, _, hsome, _⟩
    rw [hsome]
    exact Option.some_ne_none moved

section Unserved

variable {hart : Nat} (hunserved : ∀ config ∈ configs, config.serves hart = false)

include hunserved

theorem explained_of_unserved (m : Machine) :
    Explained ⟨hart, m, ⟨.error (.refused .noDevice), [], ""⟩,
      m.begun⟩ configs lead earlier where
  returns_iff := by
    refine iff_of_false (fun hreturns => ?_) fun hserved => ?_
    · rcases hreturns with ⟨_, hanswer⟩
      cases hanswer
    · rcases hserved with ⟨config, hmem, hserves⟩
      exact absurd (hunserved config hmem) (ne_false_of_eq_true hserves)
  refused _ := ⟨rfl, rfl⟩
  moved number config hconfig hmoves :=
    absurd (hunserved config (List.mem_of_getElem? hconfig)) (ne_false_of_eq_true hmoves.2.2.1)
  kept _ _ _ _ := rfl
  writes number config hconfig hserves :=
    absurd (hunserved config (List.mem_of_getElem? hconfig)) (ne_false_of_eq_true hserves)

theorem MovedBy.cons_of_unserved (h : MovedBy configs lead earlier delta)
    (hhart : boot.hart = hart) : MovedBy configs lead (boot :: earlier) delta := by
  intro number config hconfig
  rw [h number config hconfig]
  simp [hhart, hunserved config (List.mem_of_getElem? hconfig)]

end Unserved

/-!
# Calls of a board
-/

section Calls

variable {m after : Machine} {hart : Nat} {cold : Bool}

theorem boot_of_ok (h : Machine.bootTimer hart cold m.begun = .ok () after) :
    m.boot hart cold =
      ⟨hart, m, ⟨.ok .done, after.outside.trace.reverse, after.outside.output⟩, after⟩ := by
  have hrun : Machine.run (.board (.bootTimer hart cold)) m.begun = .ok .done after :=
    bind_of_ok h
  unfold Machine.boot
  rw [Machine.step_eq, hrun]

theorem boot_of_error {exit : Exit}
    (h : Machine.bootTimer hart cold m.begun = .error exit after) : m.boot hart cold =
      ⟨hart, m, ⟨.error exit, after.outside.trace.reverse, after.outside.output⟩, after⟩ := by
  have hrun : Machine.run (.board (.bootTimer hart cold)) m.begun = .error exit after :=
    bind_of_error h
  unfold Machine.boot
  rw [Machine.step_eq, hrun]

theorem ok_of_boot {answer : Answer} (h : (m.boot hart cold).report.outcome = .ok answer) :
    ∃ after, Machine.bootTimer hart cold m.begun = .ok () after := by
  cases hrun : Machine.bootTimer hart cold m.begun with
  | ok value after => exact ⟨after, rfl⟩
  | error exit after =>
      rw [boot_of_error hrun] at h
      cases h

def AllExplained (configs : List Mtimer.Config) (lead : Nat) (boots : List Boot) : Prop :=
  ∀ later boot earlier, boots = later ++ boot :: earlier → boot.Explained configs lead earlier

theorem AllExplained.cons {boots : List Boot} (h : AllExplained configs lead boots)
    (hlatest : boot.Explained configs lead boots) :
    AllExplained configs lead (boot :: boots) := by
  intro later found earlier hsplit
  cases later with
  | nil =>
      cases hsplit
      exact hlatest
  | cons latest later =>
      cases hsplit
      exact h later found earlier rfl

theorem AllExplained.nil (configs : List Mtimer.Config) (lead : Nat) :
    AllExplained configs lead [] := by
  intro later boot earlier hsplit
  simp at hsplit

def Settled (configs : List Mtimer.Config) (lead : Nat) (boots : List Boot)
    (m : Machine) : Prop :=
  AllExplained configs lead boots ∧
    ∃ delta, Bench.Commissioned lead configs configs.length delta m.outside ∧
      MovedBy configs lead boots delta

theorem settled_cold (hfresh : Bench.Fresh lead configs m.outside) {answer : Answer}
    (h : (m.boot hart true).report.outcome = .ok answer) :
    Settled configs lead [m.boot hart true] (m.boot hart true).after := by
  rcases ok_of_boot h with ⟨after, hrun⟩
  have hbegun : Bench.Fresh lead configs m.begun.outside := { hfresh with }
  rcases Machine.ok_of_bootTimer hbegun hrun with ⟨bound, hbound, hbring⟩
  by_cases hserved : ∃ config ∈ configs, config.serves hart = true
  · rcases hserved with ⟨config, hmem, hserves⟩
    rcases List.getElem?_of_mem hmem with ⟨number, hconfig⟩
    have hbefore (number : Nat) (config : Mtimer.Config)
        (hfound : configs[number]? = some config) :
        m.delta? number = none := hfresh.commissioned.delta?_eq hfound
    rw [boot_of_ok hrun]
    rcases explained_of_bringUp hbound.commissioned (.nil configs lead) hbefore hbound.bus
      hbound.writes hconfig hserves hbring with ⟨hexplained, hafter⟩
    exact ⟨(AllExplained.nil configs lead).cons hexplained, hafter⟩
  · have hrefused := Machine.bringUp_of_unserved hbound.commissioned
      (show ∀ config ∈ configs, config.serves hart = false by simpa using hserved)
    rw [hbring] at hrefused
    cases hrefused

theorem settled_warm {boots : List Boot} (h : Settled configs lead boots m)
    (hreads : (m.boot hart false).report.outcome ≠ .error .exhausted) :
    Settled configs lead (m.boot hart false :: boots) (m.boot hart false).after := by
  rcases h with ⟨hall, delta, hcommissioned, hmovedBy⟩
  have hbegun : Bench.Commissioned lead configs configs.length delta m.begun.outside :=
    (Bench.Commissioned.lasting _ _ _ _) _ _ _ _ _ _ (List.Subset.refl _) hcommissioned
  have hcount := Nat.zero_lt_of_lt hbegun.present
  have hbring : Machine.bootTimer hart false m.begun =
      Machine.driverBringUpTimer boardDriver hart m.begun := by
    rw [Machine.bootTimer_warm]
    exact Machine.bringUpTimer_of_commissioned hbegun hcount
  by_cases hserved : ∃ config ∈ configs, config.serves hart = true
  · rcases hserved with ⟨config, hmem, hserves⟩
    rcases List.getElem?_of_mem hmem with ⟨number, hconfig⟩
    cases hrun : Machine.driverBringUpTimer boardDriver hart m.begun with
    | ok value after =>
        have hbefore (number : Nat) (config : Mtimer.Config)
            (hfound : configs[number]? = some config) : m.delta? number = delta number :=
          hcommissioned.delta?_eq hfound
        rw [boot_of_ok (hbring.trans hrun)]
        rcases explained_of_bringUp hbegun hmovedBy hbefore rfl rfl hconfig hserves hrun with
          ⟨hexplained, hafter⟩
        exact ⟨hall.cons hexplained, hafter⟩
    | error exit after =>
        rw [boot_of_error (hbring.trans hrun),
          Machine.exhausted_of_bringUp hbegun hconfig hserves hrun] at hreads
        exact absurd rfl hreads
  · have hunserved : ∀ config ∈ configs, config.serves hart = false := by simpa using hserved
    rw [boot_of_error (hbring.trans (Machine.bringUp_of_unserved hbegun hunserved))]
    exact ⟨hall.cons (explained_of_unserved hunserved m), delta, hbegun,
      hmovedBy.cons_of_unserved hunserved rfl⟩

end Calls

end Boot

namespace Boots

open Boot

variable {lead : Nat} {configs : List Mtimer.Config} {start m : Machine} {boots : List Boot}

theorem settled (h : Boots start boots m) (hfresh : Bench.Fresh lead configs start.outside) :
    Settled configs lead boots m := by
  induction h with
  | cold hreturns => exact settled_cold hfresh hreturns
  | warm h hreads ih => exact settled_warm ih hreads
  | elsewhere h htimers ih =>
      rcases ih with ⟨hall, delta, hcommissioned, hmovedBy⟩
      exact ⟨hall, delta, htimers.commissioned hcommissioned, hmovedBy⟩

/-- Which calls of a board succeed, what they write, which devices they align, and by how much;
and what each device follows and knows of its alignment once some harts have booted. -/
theorem explained (h : Boots start boots m) (hfresh : Bench.Fresh lead configs start.outside) :
    (∀ later boot earlier, boots = later ++ boot :: earlier →
      boot.Explained configs lead earlier) ∧
    ∀ number config, configs[number]? = some config →
      ∃ device, m.outside.mtimers[number]? = some device ∧ device.config = config ∧
        device.reference = (if number = lead then none else some lead) ∧
        (∀ leader, configs[lead]? = some leader → leader.frequency = config.frequency) ∧
        (device.delta ≠ none ↔ number ≠ lead ∧ config.sharesTime = false ∧
          ∃ boot ∈ boots, config.serves boot.hart = true) := by
  rcases h.settled hfresh with ⟨hall, delta, hcommissioned, hmovedBy⟩
  refine ⟨hall, fun number config hconfig => ?_⟩
  have hlt := (List.getElem?_eq_some_iff.mp hconfig).1
  refine ⟨_, hcommissioned.getElem? hconfig, rfl, ?_, fun leader hleader => ?_,
    hmovedBy number config hconfig⟩
  · change Bench.leadFor lead configs.length number = _
    unfold Bench.leadFor
    by_cases hlead : number = lead
    · simp [hlead]
    · simp [hlead, hlt]
  · by_cases hlead : number = lead
    · rw [hlead, hleader] at hconfig
      cases hconfig
      rfl
    · exact hcommissioned.sameFrequency number config leader hlt hlead hconfig hleader

def diesMachine : Machine :=
  { outside :=
    { board := { timeReference := some 0 }
      mtimers :=
        [{ config := ⟨0x1000, 8, 0x2000, 16, 24000000, ⟨0, 2⟩, true, false, []⟩ },
          { config := ⟨0x3000, 8, 0x4000, 16, 24000000, ⟨2, 2⟩, true, false, []⟩ }]
      logger := .console none
      bus := { memory := fun a => if a = 0x1000 then 5000 else 0 } } }

theorem fresh_diesMachine :
    Bench.Fresh 0 (diesMachine.outside.mtimers.map (·.config)) diesMachine.outside where
  devices := rfl
  reference := rfl
  present := by decide
  driver := rfl
  timer := rfl
  untrapped _ _ _ := ⟨⟨rfl, rfl⟩, fun _ _ => ⟨rfl, rfl⟩⟩
  off := rfl

def halfBooted : Machine := (diesMachine.boot 0 true).after

def bootedDies : Machine := ((halfBooted.boot 3 false).after.boot 4 false).after

theorem boots_bootedDies : Boots diesMachine
    [(halfBooted.boot 3 false).after.boot 4 false, halfBooted.boot 3 false,
      diesMachine.boot 0 true]
    bootedDies := by
  have hfirst : Boots diesMachine [diesMachine.boot 0 true] halfBooted := by
    apply cold
    rw [boot_of_ok (ok_of_succeeds (by decide +kernel))]
  have hsecond : Boots diesMachine [halfBooted.boot 3 false, diesMachine.boot 0 true]
      (halfBooted.boot 3 false).after := by
    apply hfirst.warm
    rw [boot_of_ok (ok_of_succeeds (by decide +kernel))]
    exact nofun
  exact hsecond.warm (by
    rw [boot_of_error (error_of_exit? (by decide +kernel :
      exit? (Machine.bootTimer 4 false) _ = some (.refused .noDevice)))]
    exact nofun)

theorem explained_bootedDies :
    (∃ device, bootedDies.outside.mtimers[1]? = some device ∧ device.reference = some 0 ∧
      device.delta ≠ none) ∧
    ((halfBooted.boot 3 false).after.boot 4 false).report.outcome =
      .error (.refused .noDevice) := by
  rcases explained boots_bootedDies fresh_diesMachine with ⟨hexplained, hdevices⟩
  constructor
  · rcases hdevices 1 _ rfl with ⟨device, hdevice, _, hreference, _, hdelta⟩
    refine ⟨device, hdevice, hreference, hdelta.mpr ⟨by decide, rfl, ?_⟩⟩
    exact ⟨_, List.mem_cons_of_mem _ List.mem_cons_self, by decide⟩
  · exact ((hexplained [] _ _ rfl).refused (by decide)).1

end Boots
end Interhart
