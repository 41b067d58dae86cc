import Interhart.Proofs.Ipi.FanOut
import Interhart.Proofs.Ipi.Presence
import Interhart.Proofs.Machine.Surroundings

/-!
# Which harts are available

A hart becomes available by coming up, and stays so until it is withdrawn or halts.  If a
software-interrupt driver is the controller, it lets only those harts come up that it has
bound to a device, so it can interrupt every available hart.  This is so however calls are
nested and however they end, as long as nobody declares a hart available that has not come
up.
-/

namespace Interhart
namespace Ipi

/-- A call by which no hart becomes available without coming up. -/
def Call.IsHonest (call : Call) : Prop := ∀ hart, call ≠ .makeAvailable hart

end Ipi

namespace Bench

/-!
# What interrupted harts leave alone

Neither the controllers nor the harts that carry out events touch a driver or its devices.
-/

def Reacts (permitted : Ipi.Call → Prop) (b : Bench) : Prop :=
  ∀ reaction ∈ b.script.reactions, ∀ call ∈ reaction.calls, permitted call

theorem lasting_reacts (permitted : Ipi.Call → Prop) : Lasting (Reacts permitted) :=
  fun _ _ _ _ _ _ hfewer h reaction hmem => h reaction (hfewer hmem)

theorem Lasting.asks {kept : Bench → Prop} (h : Lasting kept) {permitted : Ipi.Call → Prop}
    (hprocess : ∀ hart, permitted (.process hart))
    (hreacts : ∀ b, kept b → Reacts permitted b) :
    Ipi.Asks environment permitted kept where
  raise controller hart := by
    intro b hb
    cases hrun : environment.raise controller hart b with
    | ok calls b' =>
        refine ⟨(h.raising controller hart).of_ok hb hrun, fun call hmem => ?_⟩
        rcases Ipi.onlyProcesses_quietEnvironment.raise hrun call hmem with ⟨target, rfl⟩
        exact hprocess target
    | error exit b' => exact (h.raising controller hart).of_error hb hrun
  clear controller hart := h.clearing controller hart
  perform hart event := by
    refine Contract.bind (h.recording _) fun _ => Contract.get_bind fun b hb => ?_
    dsimp only
    split
    · rename_i reaction hfound
      intro _ heq
      rw [heq]
      exact ⟨h b b.bus b.clocks b.trace b.output _ List.eraseP_subset hb,
        hreacts b hb reaction (List.mem_of_find?_eq_some hfound)⟩
    · intro _ heq
      rw [heq]
      exact ⟨hb, fun call hmem => absurd hmem List.not_mem_nil⟩
  returned answer := h.recording _
  log record := h.passing (.logging record)

/-- The software-interrupt drivers and their devices are as they were, and the reactions that
are still to come make honest calls only. -/
structure Wired (start b : Bench) : Prop where
  mswis : b.mswis = start.mswis
  drivers : b.mswiDrivers = start.mswiDrivers
  honest : b.Reacts Ipi.Call.IsHonest

namespace Wired

theorem lasting (start : Bench) : Lasting (Wired start) := by
  intro b bus clocks trace output reactions hfewer h
  exact ⟨h.mswis, h.drivers,
    lasting_reacts _ b bus clocks trace output reactions hfewer h.honest⟩

theorem asks (start : Bench) : Ipi.Asks environment Ipi.Call.IsHonest (Wired start) :=
  (lasting start).asks (fun _ _ => nofun) fun _ h => h.honest

end Wired
end Bench

/-!
# What calls keep
-/

/-- A machine in the course of a call that began in `start`. -/
structure Attending (start m : Machine) : Prop where
  controller : m.dispatcher.controller = start.dispatcher.controller
  wired : Bench.Wired start.outside m.outside
  available : ∀ hart, hart ∈ m.dispatcher.available ↔ Ipi.Online hart m.history
  bound : ∀ hart ∈ m.dispatcher.available, ∃ driver number,
    start.dispatcher.controller = some (.mswi driver) ∧
      (start.outside.mswiDrivers driver).devices.get? hart = some number

namespace Attending

variable {start m : Machine}

theorem within (h : Attending start m) {outside : Bench}
    (hwired : Bench.Wired start.outside outside) : Attending start (m.within outside) :=
  ⟨h.controller, hwired, h.available, h.bound⟩

theorem contract_onOutside {α : Type} {step : BenchM α} {fact : α → Prop}
    (h : Contract (Bench.Wired start.outside) step
      (fun value b => Bench.Wired start.outside b ∧ fact value)
      fun _ => Bench.Wired start.outside) :
    Contract (Attending start) (Ipi.onOutside step)
      (fun value m => Attending start m ∧ fact value) fun _ => Attending start :=
  Ipi.contract_onOutside (fun _ hm => hm.wired) (fun _ _ hm hwired => hm.within hwired) h

theorem keeps_onOutside {α : Type} {step : BenchM α}
    (h : Keeps (Bench.Wired start.outside) step) :
    Keeps (Attending start) (Ipi.onOutside step) :=
  Ipi.keeps_onOutside (fun _ hm => hm.wired) (fun _ _ hm hwired => hm.within hwired) h

theorem noting (h : Attending start m) {incident : Ipi.Incident}
    (hplain : incident.isPlain = true) : Attending start (m.noting incident) := by
  refine ⟨h.controller, h.wired, ?_, h.bound⟩
  intro hart
  rw [Ipi.System.history_noting, Ipi.online_cons_of_isPlain hplain]
  exact h.available hart

theorem withdrawing (h : Attending start m) (gone : Nat) :
    Attending start (m.withdrawing gone) := by
  constructor
  · exact h.controller
  · exact h.wired
  · intro hart
    rw [Ipi.System.history_noting, Ipi.online_cons_iff]
    simp only [Ipi.System.dispatcher_noting, Ipi.System.dispatcher_changing, HartSet.mem_erase,
      h.available, ne_eq, reduceCtorEq, Ipi.Incident.madeUnavailable.injEq, false_or]
    rw [eq_comm]
    rfl
  · intro hart hmem
    exact h.bound hart (HartSet.mem_erase.mp hmem).2

theorem bringingUp (h : Attending start m) {driver : DriverId} {fresh number : Nat}
    (hlimit : fresh < hartLimit)
    (hcontroller : start.dispatcher.controller = some (.mswi driver))
    (hbound : (start.outside.mswiDrivers driver).devices.get? fresh = some number) :
    Attending start (m.bringingUp fresh) := by
  constructor
  · exact h.controller
  · exact h.wired
  · intro hart
    rw [Ipi.System.history_noting, Ipi.System.history_noting, Ipi.online_cons_iff,
      Ipi.online_cons_iff]
    simp only [Ipi.System.dispatcher_noting, Ipi.System.dispatcher_changing, HartSet.mem_insert,
      h.available, hlimit, Ipi.System.history_changing]
    simp [eq_comm]
  · intro hart hmem
    rcases HartSet.mem_insert.mp hmem with ⟨rfl, _⟩ | hold
    · exact ⟨driver, number, hcontroller, hbound⟩
    · exact h.bound hart hold

theorem invariant
    (hcontroller : ∀ controller, start.dispatcher.controller = some controller →
      ∃ driver, controller = .mswi driver) :
    Ipi.Invariant Bench.environment Ipi.Call.IsHonest (Attending start) where
  noting hplain h := h.noting hplain
  filling _ _ h := ⟨h.controller, h.wired, h.available, h.bound⟩
  withdrawing gone h := h.withdrawing gone
  admitting hart hhonest _ := absurd rfl (hhonest hart)
  bringingUp {s t controller hart} hpresent hrefusal hlimit hs ht := by
    rw [hs.controller] at hpresent
    rcases hcontroller controller hpresent with ⟨driver, rfl⟩
    change (if (s.outside.mswiDrivers driver).devices.contains hart then none
      else some Error.noDevice) = none at hrefusal
    rw [hs.wired.drivers] at hrefusal
    split at hrefusal
    · rename_i hcontains
      rcases Option.isSome_iff_exists.mp hcontains with ⟨number, hnumber⟩
      exact ht.bringingUp hlimit hpresent hnumber
    · cases hrefusal
  raise controller hart := contract_onOutside ((Bench.Wired.asks _).raise controller hart)
  clear controller hart := keeps_onOutside ((Bench.Wired.asks _).clear controller hart)
  perform hart event := contract_onOutside ((Bench.Wired.asks _).perform hart event)
  returned answer := keeps_onOutside ((Bench.Wired.asks _).returned answer)
  log record := keeps_onOutside ((Bench.Wired.asks _).log record)

end Attending

/-!
# Drivers that take devices on
-/

namespace Bench

def Served (b : Bench) : Prop :=
  ∀ driver hart number, (b.mswiDrivers driver).devices.get? hart = some number →
    (Binder.mswi driver).Serves b number hart

structure Extended (start b : Bench) : Prop where
  honest : b.script = start.script
  served : start.Served → b.Served
  keeps : ∀ driver hart number, (start.mswiDrivers driver).devices.get? hart = some number →
    (b.mswiDrivers driver).devices.get? hart = some number

namespace Extended

theorem alike {start b b' : Bench} (h : Extended start b) (halike : Alike b b') :
    Extended start b' := by
  rcases halike with ⟨_, _, _, _, _, rfl⟩
  exact ⟨h.honest, h.served, h.keeps⟩

theorem refl (b : Bench) : Extended b b := ⟨rfl, id, fun _ _ _ h => h⟩

theorem of_protecting {start b : Bench} {asked done : List Region}
    (h : Protecting start asked done b) : Extended start b := by
  rcases h with ⟨domain, _, _, halike⟩
  have hdomain : Extended start { start with domain := domain } := ⟨rfl, id, fun _ _ _ h => h⟩
  exact hdomain.alike halike

theorem assigning {start b : Bench} {asked done : List Region}
    (h : Protecting start asked done b) {driver : DriverId} {number : Nat}
    {config : Mswi.Config} (hdevice : start.mswis[number]? = some config)
    (hvacant : ((Binder.mswi driver).table start).isVacant config.harts = true) :
    Extended start { b with
      mswiDrivers := fun d =>
        if d = driver then ⟨((Binder.mswi driver).table start).assign config.harts number⟩
        else b.mswiDrivers d } := by
  rcases h with ⟨domain, _, _, _, _, _, _, _, rfl⟩
  constructor
  · rfl
  · intro hserved other hart found hfound
    by_cases hsame : other = driver
    · subst hsame
      simp only [↓reduceIte, HartTable.get?_assign] at hfound
      split at hfound
      · rename_i hcontains
        cases hfound
        exact ⟨config.harts, by rw [Binder.harts?, hdevice]; rfl, hcontains⟩
      · exact hserved other hart found hfound
    · simp only [if_neg hsame] at hfound
      exact hserved other hart found hfound
  · intro other hart found hfound
    by_cases hsame : other = driver
    · subst hsame
      simp only [↓reduceIte, HartTable.get?_assign]
      split
      · rename_i hcontains
        have hfree := (HartTable.isVacant_iff.mp hvacant).2 hart hcontains
        rw [Binder.table, hfound] at hfree
        cases hfree
      · exact hfound
    · simp only [if_neg hsame]
      exact hfound

theorem logging {start : Bench} (entry : LogRecord) : Keeps (Extended start) (log entry) :=
  (Passive.logging entry).keeping fun _ _ halike h => h.alike halike

section Steps

variable {b : Bench}

theorem contract_exit {α : Type} {after : α → Bench → Prop} (exit : Exit) :
    Contract (· = b) (throw exit : BenchM α) after fun _ => Extended b := by
  apply Contract.exit
  intro s hs
  rw [hs]
  exact refl b

theorem contract_mswi (number : Nat) :
    Contract (· = b) (mswi number) (fun config s => s = b ∧ b.mswis[number]? = some config)
      fun _ => Extended b := by
  apply Contract.get_bind_of_eq
  cases b.mswis[number]? with
  | some config => exact Contract.value fun _ hs => ⟨hs, rfl⟩
  | none => exact contract_exit _

theorem of_checks {condition named : Prop} {check : BenchM Unit}
    (h : Checks b condition named check) :
    Contract (· = b) check (fun _ s => s = b ∧ condition) fun _ => Extended b := by
  apply h.breaking
  intro exit s hrefused
  rw [hrefused.1]
  exact refl b

theorem contract_protect (config : Mswi.Config) :
    let asked := config.blocks.flatMap (Domain.rangeRegions Mswi.alignment.toNat)
    Contract (· = b)
      (config.blocks.forM fun (base, size) => protectRange base size Mswi.alignment.toNat)
      (fun _ => Protecting b asked asked) fun _ => Extended b := by
  have hranges : Contract (Protecting b _ []) _ _ (Refusing b _) :=
    protecting_ranges (by decide : Domain.isPowerOfTwo Mswi.alignment.toNat = true)
      (List.Subset.refl (config.blocks.flatMap (Domain.rangeRegions Mswi.alignment.toNat)))
  refine hranges.weaken ?_ ?_ ?_
  · intro s hs
    rw [hs]
    exact .refl b _
  · intro _ s hs
    rw [List.append_nil] at hs
    exact hs.1
  · intro exit s hs
    exact of_protecting hs.1

end Steps

theorem contract_bindMswi (driver : DriverId) (number : Nat) (b : Bench) :
    Contract (· = b) (bindMswi driver number) (fun _ => Extended b) fun _ => Extended b := by
  refine (contract_mswi number).bind fun config => Contract.assuming fun hconfig => ?_
  refine (of_checks (checks_validate config.isValid)).bind fun _ =>
    Contract.assuming fun _ => ?_
  apply Contract.get_bind_of_eq
  refine (of_checks (checks_requireVacant _ _)).bind fun _ => Contract.assuming fun hfree => ?_
  refine (contract_protect config).bind fun _ => Contract.get_bind fun s hs => ?_
  have htable : (s.mswiDrivers driver).devices = (b.mswiDrivers driver).devices :=
    table_of_protecting hs (.mswi driver)
  rw [htable, HartTable.bindRange_eq_ok_iff.mpr ⟨hfree, rfl⟩]
  have hbind : Contract (· = s) (setMswiDriver driver fun d =>
      { d with devices := (b.mswiDrivers driver).devices.assign config.harts number })
      (fun _ => Extended b) fun _ => Extended b := by
    apply Contract.modify
    intro t ht
    rw [ht]
    exact assigning hs hconfig hfree
  exact hbind.bind fun _ => logging _

end Extended
end Bench

/-!
# Runs of calls
-/

structure Manned (m : Machine) : Prop where
  controlled : ∀ controller, m.dispatcher.controller = some controller →
    ∃ driver, controller = .mswi driver
  served : m.outside.Served
  attending : Attending m m

namespace Manned

variable {m : Machine}

theorem of_attending (h : Manned m) {after : Machine} (hafter : Attending m after) :
    Manned after := by
  constructor
  · rw [hafter.controller]
    exact h.controlled
  · intro driver hart number hnumber
    rw [hafter.wired.drivers] at hnumber
    have hserves := h.served driver hart number hnumber
    unfold Binder.Serves Binder.harts? at hserves ⊢
    rw [hafter.wired.mswis]
    exact hserves
  · refine ⟨rfl, ⟨rfl, rfl, hafter.wired.honest⟩, hafter.available, ?_⟩
    rw [hafter.controller, hafter.wired.drivers]
    exact hafter.bound

theorem keeps {α : Type} {operation : MachineM α}
    (h : ∀ m, Manned m → Keeps (Attending m) operation) : Keeps Manned operation := by
  intro m hm
  have hkeeps := h m hm
  cases hrun : operation m with
  | ok value after => exact hm.of_attending (hkeeps.of_ok hm.attending hrun)
  | error exit after => exact hm.of_attending (hkeeps.of_error hm.attending hrun)

theorem upheld (h : Manned m) :
    Ipi.Upheld Bench.environment Ipi.Call.IsHonest (Attending m) :=
  (Attending.invariant h.controlled).upheld

theorem keeps_handle (h : Manned m) (calls : List Ipi.Call)
    (hcalls : ∀ call ∈ calls, call.IsHonest) : Keeps (Attending m) (Machine.handle calls) :=
  Keeps.looking fun s _ => h.upheld.carryOut s.outside.depth hcalls

theorem keeps_run (made : Ipi.Call) (hmade : made.IsHonest) :
    Keeps Manned (made.run Bench.environment Machine.handle) :=
  keeps fun _ hm => hm.upheld.run hm.keeps_handle hmade

theorem extending (h : Manned m) {outside : Bench}
    (hextended : Bench.Extended m.outside outside) : Manned (m.within outside) := by
  refine ⟨h.controlled, hextended.served h.served, rfl, ⟨rfl, rfl, ?_⟩,
    h.attending.available, ?_⟩
  · change ∀ reaction ∈ outside.script.reactions, _
    rw [hextended.honest]
    exact h.attending.wired.honest
  · intro hart hmem
    rcases h.attending.bound hart hmem with ⟨driver, number, hcontroller, hbound⟩
    exact ⟨driver, number, hcontroller, hextended.keeps driver hart number hbound⟩

theorem registering (h : Manned m) (driver : DriverId) :
    Manned (m.changing fun d => { d with
      controller := some (m.dispatcher.controller.getD (.mswi driver)) }) := by
  refine ⟨?_, h.served, rfl, ⟨rfl, rfl, h.attending.wired.honest⟩, h.attending.available, ?_⟩
  · intro controller hcontroller
    cases hpresent : m.dispatcher.controller with
    | none =>
        rw [Ipi.System.dispatcher_changing, hpresent] at hcontroller
        cases hcontroller
        exact ⟨driver, rfl⟩
    | some present =>
        rw [Ipi.System.dispatcher_changing, hpresent] at hcontroller
        cases hcontroller
        exact h.controlled _ hpresent
  · intro hart hmem
    rcases h.attending.bound hart hmem with ⟨other, number, hcontroller, hbound⟩
    refine ⟨other, number, ?_, hbound⟩
    rw [Ipi.System.dispatcher_changing, hcontroller]
    rfl

theorem keeps_registerController (driver : DriverId) :
    Keeps Manned (Machine.registerController (.mswi driver)) :=
  Contract.registering (fun _ hm => hm.registering driver) fun record =>
    keeps fun _ hm => hm.upheld.log record

theorem keeps_bindMswi (driver : DriverId) (number : Nat) :
    Keeps Manned (Machine.bindMswi driver number) := by
  have hbind : Keeps Manned (Ipi.onOutside (Bench.bindMswi driver number)) := by
    intro m hm
    have hcontract := Bench.Extended.contract_bindMswi driver number m.outside
    cases hrun : Bench.bindMswi driver number m.outside with
    | ok value outside =>
        rw [Ipi.onOutside_of_ok hrun]
        exact hm.extending (hcontract.of_ok rfl hrun)
    | error exit outside =>
        rw [Ipi.onOutside_of_error hrun]
        exact hm.extending (hcontract.of_error rfl hrun)
  exact hbind.bind fun _ => keeps_registerController driver

end Manned

/-- What calls of the dispatcher and of software-interrupt drivers lead to, however each of
them has ended, from a dispatcher to which nothing has happened yet.  Its controller, if it has
one, is such a driver, and no driver has bound a hart.  Between the calls other parts of the
bench may change. -/
inductive Attended : Machine → Prop
  | fresh {controller : Option Controller} {outside : Bench}
      (hcontroller : ∀ present, controller = some present → ∃ driver, present = .mswi driver)
      (hempty : ∀ driver hart, (outside.mswiDrivers driver).devices.get? hart = none)
      (hhonest : ∀ reaction ∈ outside.script.reactions, ∀ call ∈ reaction.calls,
        call.IsHonest) :
      Attended { dispatcher := { controller := controller }, outside := outside }
  | bound {m : Machine} (h : Attended m) (driver : DriverId) (number : Nat) :
      Attended (finalState (Machine.bindMswi driver number) m)
  | broughtUp {m : Machine} (h : Attended m) (hart : Nat) :
      Attended (finalState (Machine.bringUpIpi hart) m)
  | madeUnavailable {m : Machine} (h : Attended m) (hart : Nat) :
      Attended (finalState (Ipi.makeUnavailable hart) m)
  | sent {m : Machine} (h : Attended m) (origin : Nat) (targets : Option HartSet)
      (event : Option Ipi.Event) : Attended (finalState (Machine.send origin targets event) m)
  | processed {m : Machine} (h : Attended m) (hart : Nat) :
      Attended (finalState (Machine.process hart) m)
  | elsewhere {m : Machine} (h : Attended m) {outside : Bench}
      (hwired : Bench.Wired m.outside outside) : Attended (m.within outside)

namespace Attended

variable {m : Machine}

theorem manned (h : Attended m) : Manned m := by
  induction h with
  | fresh hcontroller hempty hhonest =>
      refine ⟨hcontroller, ?_, rfl, ⟨rfl, rfl, hhonest⟩, ?_, ?_⟩
      · intro driver hart number hnumber
        have hnone := hempty driver hart
        rw [hnumber] at hnone
        cases hnone
      · intro hart
        simp
      · intro hart hmem
        exact absurd hmem (HartSet.not_mem_empty hart)
  | bound _ driver number ih => exact (Manned.keeps_bindMswi driver number).finalState ih
  | broughtUp _ hart ih => exact (Manned.keeps_run (.bringUp hart) fun _ => nofun).finalState ih
  | madeUnavailable _ hart ih =>
      exact (Manned.keeps_run (.makeUnavailable hart) fun _ => nofun).finalState ih
  | sent _ origin targets event ih =>
      exact (Manned.keeps_run (.send origin targets event) fun _ => nofun).finalState ih
  | processed _ hart ih =>
      exact (Manned.keeps_run (.process hart) fun _ => nofun).finalState ih
  | elsewhere _ hwired ih => exact ih.of_attending (ih.attending.within hwired)

theorem history_bindMswi (driver : DriverId) (number : Nat) (m : Machine) :
    (finalState (Machine.bindMswi driver number) m).history = m.history := by
  have houtside {α : Type} (step : BenchM α) :
      Keeps (·.history = m.history) (Ipi.onOutside step : MachineM α) :=
    Ipi.keeps_onOutside_of_history (fun _ _ heq hs => heq.trans hs) step
  have hbind : Keeps (·.history = m.history) (Machine.bindMswi driver number) :=
    Keeps.bind (houtside _) fun _ =>
      Contract.registering (fun _ hs => hs) fun record => houtside (Bench.log record)
  exact Contract.finalState hbind rfl

/-- The available harts are those that have come up and have not become unavailable since, and
the controller has each of them bound to a device that serves it.  A hart comes up in the
history exactly if its call answers so, and becomes unavailable there if it is withdrawn or
takes a Halt, however the call ends.  Nothing else does so: a hart that no call brings up or
withdraws becomes unavailable only where it goes on to carry out a Halt. -/
theorem available_iff_online (h : Attended m) :
    (∀ hart, hart ∈ m.dispatcher.available ↔ Ipi.Online hart m.history) ∧
      (∀ hart ∈ m.dispatcher.available, hart < hartLimit ∧
        ∃ driver number config, m.dispatcher.controller = some (.mswi driver) ∧
          (m.outside.mswiDrivers driver).devices.get? hart = some number ∧
          m.outside.mswis[number]? = some config ∧ config.serves hart = true) ∧
      (∀ hart, ∃ recent,
        (finalState (Ipi.tryBringUp Bench.environment hart) m).history = recent ++ m.history ∧
          (∀ other, .broughtUp other ∈ recent ↔ other = hart ∧
            ∃ after, Ipi.tryBringUp Bench.environment hart m = .ok (.ok ()) after) ∧
          ∀ other, .madeUnavailable other ∉ recent) ∧
      (∀ hart,
        (finalState (Ipi.makeUnavailable hart) m).history = .madeUnavailable hart :: m.history ∧
        ∀ t, Ipi.Entered Bench.environment hart m t → t.dispatcher.slots hart = some .halt →
          Ipi.Recorded (.madeUnavailable hart) m.history
            (finalState (Machine.process hart) m)) ∧
      (∀ driver number,
        (finalState (Machine.bindMswi driver number) m).history = m.history) ∧
      ∀ hart, m.outside.Reacts (·.Spares hart) → ∀ made : Ipi.Call, made.Spares hart →
        ∃ recent, (finalState (made.run Bench.environment Machine.handle) m).history =
          recent ++ m.history ∧ Ipi.Untouched hart recent := by
  have hmanned := h.manned
  refine ⟨hmanned.attending.available, ?_, fun hart => Ipi.broughtUp_mem_iff _ hart m, ?_,
    fun driver number => history_bindMswi driver number m, ?_⟩
  · intro hart hmem
    rcases hmanned.attending.bound hart hmem with ⟨driver, number, hcontroller, hnumber⟩
    rcases hmanned.served driver hart number hnumber with ⟨harts, hharts, hcontains⟩
    rcases Option.map_eq_some_iff.mp hharts with ⟨config, hconfig, hrange⟩
    refine ⟨HartSet.lt_of_mem hmem, driver, number, config, hcontroller, hnumber, hconfig, ?_⟩
    rw [Mswi.Config.serves, hrange]
    exact hcontains
  · exact fun hart => ⟨rfl, fun t => Ipi.recorded_of_halt Ipi.makesCalls_handle⟩
  · intro hart hreacts made hspares
    have hasks : Ipi.Asks Bench.environment (·.Spares hart) (Bench.Reacts (·.Spares hart)) :=
      (Bench.lasting_reacts _).asks (fun _ => ⟨nofun, nofun⟩) fun _ hb => hb
    exact hasks.untouched Ipi.makesCalls_handle hspares hreacts

def staffedBench : Bench where
  mswis := [⟨0x1000, 0x1000, ⟨0, 4⟩, []⟩]
  script :=
    { atAddress := fun address =>
        if address = 0x1004 then [1] else if address = 0x1008 then [2] else []
      reactions := [⟨1, .fenceI, [.send 1 (some (.single 2)) (some .halt)]⟩] }

def staffedMachine (driver : DriverId) : Machine :=
  finalState (Machine.send 0 (some (.single 1)) (some .fenceI))
    (finalState (Ipi.makeUnavailable 3)
      (finalState (Machine.bringUpIpi 5)
        (finalState (Machine.bringUpIpi 3)
          (finalState (Machine.bringUpIpi 2)
            (finalState (Machine.bringUpIpi 1)
              (finalState (Machine.bindMswi driver 0) { outside := staffedBench }))))))

theorem attended_staffedMachine (driver : DriverId) : Attended (staffedMachine driver) := by
  have hfresh : Attended { outside := staffedBench } := by
    refine .fresh (fun _ => nofun) (fun _ _ => rfl) ?_
    intro reaction hreaction call hcall hart
    rw [List.mem_singleton.mp hreaction] at hcall
    rw [List.mem_singleton.mp hcall]
    exact nofun
  have hbound := hfresh.bound driver 0
  have hup := (((hbound.broughtUp 1).broughtUp 2).broughtUp 3).broughtUp 5
  exact (hup.madeUnavailable 3).sent 0 (some (.single 1)) (some .fenceI)

theorem available_iff_online_staffedMachine :
    Ipi.Online 1 (staffedMachine 0).history ∧ ¬Ipi.Online 2 (staffedMachine 0).history ∧
      ∃ driver number config,
        (staffedMachine 0).dispatcher.controller = some (.mswi driver) ∧
        ((staffedMachine 0).outside.mswiDrivers driver).devices.get? 1 = some number ∧
        (staffedMachine 0).outside.mswis[number]? = some config ∧ config.serves 1 = true := by
  rcases available_iff_online (attended_staffedMachine 0) with ⟨hiff, hbound, _⟩
  have hup : 1 ∈ (staffedMachine 0).dispatcher.available := by decide +kernel
  have hdown : ¬2 ∈ (staffedMachine 0).dispatcher.available := by decide +kernel
  exact ⟨(hiff 1).mp hup, fun honline => hdown ((hiff 2).mpr honline), (hbound 1 hup).2⟩

end Attended
end Interhart
