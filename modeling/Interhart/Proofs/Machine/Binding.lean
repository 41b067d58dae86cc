import Interhart.Machine.Harts
import Interhart.Proofs.Machine.Checks
import Interhart.Proofs.Machine.Protecting

/-!
# How a binding ends

Both drivers take a device on in the same order.  What a binding does is told here once for
all: a binding that succeeds has done everything, and one that breaks off has done nothing
but record regions, unless it is the log that breaks off, after the harts are bound.
-/

namespace Interhart

/-- A driver, which binds harts to devices of its kind. -/
inductive Binder
  | mswi (driver : DriverId)
  | mtimer (driver : DriverId)
deriving DecidableEq

namespace Binder

def table (b : Bench) : Binder → HartTable Nat
  | mswi driver => (b.mswiDrivers driver).devices
  | mtimer driver => (b.mtimerDrivers driver).devices

def harts? (b : Bench) (number : Nat) : Binder → Option HartRange
  | mswi _ => b.mswis[number]?.map (·.harts)
  | mtimer _ => (b.mtimers.map (·.config))[number]?.map (·.harts)

def isValid (b : Bench) (number : Nat) : Binder → Bool
  | mswi _ => b.mswis[number]?.any (·.isValid)
  | mtimer _ => (b.mtimers.map (·.config))[number]?.any (·.isValid)

def ranges? (b : Bench) (number : Nat) : Binder → Option (List (UInt64 × UInt64))
  | mswi _ => b.mswis[number]?.map (·.blocks)
  | mtimer _ => (b.mtimers.map (·.config))[number]?.bind (·.ranges.toOption)

def regions (b : Bench) (number : Nat) (binder : Binder) : List Region :=
  ((binder.ranges? b number).getD []).flatMap (Domain.rangeRegions Mtimer.pieceLimit)

end Binder

inductive Binding
  | mswi (driver : DriverId) (number : Nat)
  | mtimer (driver : DriverId) (number : Nat) (reference : Option Nat)

namespace Binding

def binder : Binding → Binder
  | mswi driver _ => .mswi driver
  | mtimer driver _ _ => .mtimer driver

def number : Binding → Nat
  | mswi _ number => number
  | mtimer _ number _ => number

def Names (b : Bench) : Binding → Prop
  | mswi _ number => number < b.mswis.length
  | mtimer _ number reference =>
      number < b.mtimers.length ∧ ∀ followed, reference = some followed →
        followed < b.mtimers.length

def run : Binding → MachineM Unit
  | mswi driver number => Machine.bindMswi driver number
  | mtimer driver number reference => Ipi.onOutside (Bench.bindMtimer driver number reference)

end Binding

namespace Bench

structure SameDevices (b b' : Bench) : Prop where
  mswis : b'.mswis = b.mswis
  mtimers : b'.mtimers.map (·.config) = b.mtimers.map (·.config)
  logger : b'.logger = b.logger

/-- A driver has taken a device on. -/
structure Bound (binder : Binder) (number : Nat) (b b' : Bench) : Prop where
  valid : binder.isValid b number = true
  assigned : ∃ harts, binder.harts? b number = some harts ∧
    (binder.table b).isVacant harts = true ∧ binder.table b' =
      (binder.table b).assign harts number
  ranges : ∃ ranges, binder.ranges? b number = some ranges ∧
    ∀ range ∈ ranges, Domain.rangeOverruns Mtimer.pieceLimit range = false
  grown : Domain.Grown b.domain (binder.regions b number) b'.domain
  recorded : binder.regions b number ⊆ b'.domain.regions
  devices : SameDevices b b'
  linked : Linked b → Linked b'

/-- A driver has taken a device on, but logging that broke off. -/
structure Unlogged (b : Bench) (asked : List Region) (sound : Prop) (exit : Exit) (b' : Bench) :
    Prop where
  grown : Domain.Grown b.domain asked b'.domain
  logs : b.logger.isOff = false
  unrefused : sound → ∀ error, exit ≠ .refused error

/-- A call of a driver has not come to its end.  Either it was refused or broke off before any
hart was bound, or only logging was left.  How it was refused is told for the case that all
that it needs is there. -/
inductive Unbound (b : Bench) (asked : List Region) (sound : Prop) (exit : Exit) (b' : Bench) :
    Prop
  | early (domain : Domain) (hgrown : Domain.Grown b.domain asked domain)
      (halike : Alike { b with domain := domain } b')
      (hrefused : sound → ∀ error, exit = .refused error →
        (error = .invalidArgument ∧ domain = b.domain) ∨
          (error = .tableFull ∧ Domain.capacity ≤ domain.regions.length))
  | late (h : Unlogged b asked sound exit b')

section Steps

variable {b : Bench} {asked : List Region} {sound : Prop}

/-!
# Steps before anything is recorded
-/

theorem Unbound.untouched {exit : Exit}
    (hrefused : sound → ∀ error, exit = .refused error → error = .invalidArgument) :
    Unbound b asked sound exit b :=
  .early b.domain (.refl _ _) (.refl b) fun hsound error hexit =>
    .inl ⟨hrefused hsound error hexit, rfl⟩

theorem contract_exit {α : Type} {after : α → Bench → Prop} {exit : Exit}
    (hrefused : sound → ∀ error, exit = .refused error → error = .invalidArgument) :
    Contract (· = b) (throw exit) after (Unbound b asked sound) := by
  apply Contract.exit
  intro s hs
  rw [hs]
  exact .untouched hrefused

theorem contract_mswi {number : Nat} (hsound : sound → number < b.mswis.length) :
    Contract (· = b) (mswi number) (fun config s => s = b ∧ b.mswis[number]? = some config)
      (Unbound b asked sound) := by
  apply Contract.get_bind_of_eq
  cases hdevice : b.mswis[number]? with
  | some config => exact Contract.value fun _ h => ⟨h, rfl⟩
  | none =>
      refine contract_exit fun hs => ?_
      exact absurd (hsound hs) (Nat.not_lt.mpr (List.getElem?_eq_none_iff.mp hdevice))

theorem contract_mtimer {number : Nat} (hsound : sound → number < b.mtimers.length) :
    Contract (· = b) (mtimer number) (fun device s => s = b ∧ b.mtimers[number]? = some device)
      (Unbound b asked sound) := by
  apply Contract.get_bind_of_eq
  cases hdevice : b.mtimers[number]? with
  | some device => exact Contract.value fun _ h => ⟨h, rfl⟩
  | none =>
      refine contract_exit fun hs => ?_
      exact absurd (hsound hs) (Nat.not_lt.mpr (List.getElem?_eq_none_iff.mp hdevice))

theorem Checks.unbound {condition named : Prop} {check : BenchM Unit}
    (h : Checks b condition named check) (hsound : sound → named) :
    Contract (· = b) check (fun _ s => s = b ∧ condition) (Unbound b asked sound) := by
  apply h.breaking
  intro exit s hrefused
  rcases hrefused with ⟨rfl, _, error, rfl, hnamed⟩
  refine .untouched fun hs found hexit => ?_
  cases hexit
  exact hnamed (hsound hs)

theorem contract_orFault {α : Type} (answer : Except Fault α) :
    Contract (· = b) (orFault answer) (fun value s => s = b ∧ answer = .ok value)
      (Unbound b asked sound) := by
  cases answer with
  | ok value => exact Contract.value fun _ h => ⟨h, rfl⟩
  | error fault => exact contract_exit fun _ => nofun

/-!
# Recording the regions
-/

theorem Unbound.of_refusing (hsound : sound → Linked b) {exit : Exit} {b' : Bench}
    (h : Refusing b asked exit b') : Unbound b asked sound exit b' := by
  rcases h with ⟨⟨domain, hgrown, _, halike⟩, hrefused⟩
  refine .early domain hgrown halike fun hs error hexit => .inr ?_
  rcases halike with ⟨_, _, _, _, _, rfl⟩
  exact hrefused (hsound hs) error hexit

theorem contract_protect (hsound : sound → Linked b) {ranges : List (UInt64 × UInt64)}
    (hasked : asked = ranges.flatMap (Domain.rangeRegions Mtimer.pieceLimit)) :
    Contract (· = b)
      (ranges.forM fun (base, size) => protectRange base size Mtimer.pieceLimit)
      (fun _ s => Protecting b asked asked s ∧
        ∀ range ∈ ranges, Domain.rangeOverruns Mtimer.pieceLimit range = false)
      (Unbound b asked sound) := by
  subst hasked
  have hprotect : Contract (Protecting b _ []) _ _ (Refusing b _) :=
    protecting_ranges (by decide : Domain.isPowerOfTwo Mtimer.pieceLimit = true)
      (List.Subset.refl (ranges.flatMap (Domain.rangeRegions Mtimer.pieceLimit)))
  refine hprotect.weaken ?_ ?_ fun _ _ h => .of_refusing hsound h
  · rintro _ rfl
    exact .refl _ _
  · intro _ s hs
    rw [List.append_nil] at hs
    exact hs

/-!
# Binding the harts
-/

theorem table_of_protecting {s : Bench} (h : Protecting b asked asked s) (binder : Binder) :
    binder.table s = binder.table b := by
  rcases h with ⟨domain, _, _, _, _, _, _, _, rfl⟩
  cases binder <;> rfl

theorem contract_bindRange {s : Bench} (binder : Binder) (h : Protecting b asked asked s)
    {harts : HartRange} (hvacant : (binder.table b).isVacant harts = true) (number : Nat) :
    Contract (· = s) (orRefuse ((binder.table s).bindRange harts number))
      (fun table t => t = s ∧ table = (binder.table b).assign harts number)
      (Unbound b asked sound) := by
  rw [table_of_protecting h, HartTable.bindRange_eq_ok_iff.mpr ⟨hvacant, rfl⟩]
  exact Contract.value fun _ hs => ⟨hs, rfl⟩

theorem Bound.of_protecting {binder : Binder} {number : Nat} {harts : HartRange}
    {ranges : List (UInt64 × UInt64)} {s b' : Bench} (hvalid : binder.isValid b number = true)
    (hharts : binder.harts? b number = some harts)
    (hvacant : (binder.table b).isVacant harts = true)
    (hranges : binder.ranges? b number = some ranges)
    (hends : ∀ range ∈ ranges, Domain.rangeOverruns Mtimer.pieceLimit range = false)
    (h : Protecting b (binder.regions b number) (binder.regions b number) s)
    (htable : binder.table b' = (binder.table b).assign harts number)
    (hdomain : b'.domain = s.domain) (hdevices : SameDevices s b')
    (hlinked : Linked s → Linked b') : Bound binder number b b' := by
  rcases h with ⟨domain, hgrown, hrecorded, _, _, _, _, _, rfl⟩
  constructor
  · exact hvalid
  · exact ⟨harts, hharts, hvacant, htable⟩
  · exact ⟨ranges, hranges, hends⟩
  · rw [hdomain]
    exact hgrown
  · rw [hdomain]
    exact hrecorded
  · exact ⟨hdevices.mswis, hdevices.mtimers, hdevices.logger⟩
  · exact hlinked

/-!
# Steps after the harts are bound
-/

theorem Bound.alike {binder : Binder} {number : Nat} {s s' : Bench}
    (h : Bound binder number b s) (halike : Alike s s') : Bound binder number b s' := by
  rcases halike with ⟨_, _, _, _, _, rfl⟩
  cases binder with
  | mswi driver => exact { h with devices := { h.devices with } }
  | mtimer driver => exact { h with devices := { h.devices with } }

theorem contract_log {binder : Binder} {number : Nat} (hsound : sound → Linked b)
    (entry : LogRecord) :
    Contract (Bound binder number b) (log entry) (fun _ => Bound binder number b)
      (Unlogged b (binder.regions b number) sound) := by
  intro s hs
  have hlog := Passive.logging entry s
  cases hrun : log entry s with
  | ok value s' => exact hs.alike (hlog.of_ok (.refl s) hrun)
  | error exit s' =>
      rcases hlog.of_error (.refl s) hrun with ⟨halike, hrefused⟩
      refine ⟨(hs.alike halike).grown, ?_, fun h => hrefused (hs.linked (hsound h))⟩
      rw [← hs.devices.logger, ← Bool.not_eq_true]
      intro hoff
      rw [log_of_isOff hoff] at hrun
      cases hrun

section Timers

variable {driver : DriverId} {number : Nat}

theorem Bound.exists_mtimer {s : Bench} (h : Bound (.mtimer driver) number b s) :
    ∃ device, s.mtimers[number]? = some device := by
  rcases h.assigned with ⟨harts, hharts, _⟩
  rcases Option.map_eq_some_iff.mp hharts with ⟨config, hconfig, _⟩
  rw [← h.devices.mtimers, List.getElem?_map] at hconfig
  rcases Option.map_eq_some_iff.mp hconfig with ⟨device, hdevice, _⟩
  exact ⟨device, hdevice⟩

theorem Bound.following {s : Bench} (h : Bound (.mtimer driver) number b s) (reference : Nat) :
    Bound (.mtimer driver) number b { s with mtimers := s.mtimers.modify number fun d =>
      { d with reference := some (d.reference.getD reference) } } := by
  refine { h with devices := { h.devices with mtimers := ?_ }, linked := ?_ }
  · rw [← h.devices.mtimers]
    apply List.ext_getElem?
    intro place
    simp only [List.getElem?_map, List.getElem?_modify]
    cases s.mtimers[place]? with
    | none => rfl
    | some device => split <;> rfl
  · intro hlinked other hart found hfound
    rw [List.length_modify]
    exact h.linked hlinked other hart found hfound

theorem contract_setReference (hsound : sound → Linked b) (reference : Nat) :
    Contract (Bound (.mtimer driver) number b) (setReference number reference)
      (fun _ => Bound (.mtimer driver) number b)
      (Unlogged b ((Binder.mtimer driver).regions b number) sound) := by
  intro s hs
  rcases hs.exists_mtimer with ⟨device, hdevice⟩
  unfold setReference
  rw [bind_of_ok (mtimer_of_some hdevice)]
  by_cases hself : number = reference
  · rw [if_pos hself]
    exact contract_log hsound _ s hs
  · rw [if_neg hself]
    exact hs.following reference

theorem contract_registerTimer (hsound : sound → Linked b) (device : TimerDevice)
    (name : String) : Contract (Bound (.mtimer driver) number b) (registerTimer device name)
      (fun _ => Bound (.mtimer driver) number b)
      (Unlogged b ((Binder.mtimer driver).regions b number) sound) := by
  apply Contract.get_bind
  intro s hs
  have hset : Contract (· = s) (modify fun b => { b with timer := some (s.timer.getD device) })
      (fun _ => Bound (.mtimer driver) number b)
      (Unlogged b ((Binder.mtimer driver).regions b number) sound) := by
    apply Contract.modify
    intro t ht
    rw [ht]
    exact { hs with devices := { hs.devices with } }
  refine Contract.bind hset fun _ => ?_
  change Contract _ (if s.timer.getD device = device then _ else pure ()) _ _
  split
  · exact contract_log hsound _
  · exact Contract.value fun _ h => h

theorem contract_setMtimerDriver (alter : Mtimer.Driver → Mtimer.Driver)
    (halter : ∀ d, (alter d).devices = d.devices) :
    Contract (Bound (.mtimer driver) number b) (setMtimerDriver driver alter)
      (fun _ => Bound (.mtimer driver) number b)
      (Unlogged b ((Binder.mtimer driver).regions b number) sound) := by
  apply Contract.modify
  intro s h
  refine { h with assigned := ?_, devices := { h.devices with }, linked := ?_ }
  · simpa only [Binder.table, ↓reduceIte, halter] using h.assigned
  · intro hlinked other hart found hfound
    refine h.linked hlinked other hart found ?_
    dsimp only at hfound
    split at hfound
    · rw [halter] at hfound
      exact hfound
    · exact hfound

theorem contract_announce (hsound : sound → Linked b) (config : Mtimer.Config) :
    Contract (Bound (.mtimer driver) number b)
      (do
        setMtimerDriver driver fun d =>
          { d with frequency := if d.frequency = 0 then config.frequency else d.frequency }
        log config.boundRecord
        registerTimer (.mtimer driver) Mtimer.Driver.name)
      (fun _ => Bound (.mtimer driver) number b)
      (Unlogged b ((Binder.mtimer driver).regions b number) sound) := by
  refine Contract.bind (contract_setMtimerDriver _ fun _ => rfl) fun _ => ?_
  refine Contract.bind (contract_log hsound _) fun _ => ?_
  exact contract_registerTimer hsound _ _

end Timers

theorem linked_assign {s : Bench} (alter : Mtimer.Driver → Mtimer.Driver) (hlinked : Linked s)
    {driver : DriverId} {number : Nat} (hnumber : number < s.mtimers.length) {harts : HartRange}
    (halter : (alter (s.mtimerDrivers driver)).devices =
      (s.mtimerDrivers driver).devices.assign harts number) :
    Linked { s with
      mtimerDrivers := fun d =>
        if d = driver then alter (s.mtimerDrivers d) else s.mtimerDrivers d } := by
  intro other hart found hfound
  dsimp only at hfound ⊢
  split at hfound
  · rename_i hother
    rw [hother, halter, HartTable.get?_assign] at hfound
    split at hfound
    · cases hfound
      exact hnumber
    · exact hlinked driver hart found hfound
  · exact hlinked other hart found hfound

/-!
# The calls of the drivers
-/

theorem contract_bindMswi {driver : DriverId} {number : Nat}
    (hsound : sound → Linked b ∧ number < b.mswis.length) :
    Contract (· = b) (bindMswi driver number)
      (fun _ => Bound (.mswi driver) number b)
      (Unbound b ((Binder.mswi driver).regions b number) sound) := by
  refine Contract.bind (contract_mswi fun hs => (hsound hs).2) fun config => ?_
  refine Contract.assuming fun hdevice => ?_
  refine Contract.bind ((checks_validate config.isValid).unbound fun _ => trivial) fun _ => ?_
  refine Contract.assuming fun hvalid => ?_
  apply Contract.get_bind_of_eq
  refine Contract.bind ((checks_requireVacant _ _).unbound fun _ => trivial) fun _ => ?_
  refine Contract.assuming fun hvacant => ?_
  have hranges : (Binder.mswi driver).ranges? b number = some config.blocks := by
    rw [Binder.ranges?, hdevice]
    rfl
  refine Contract.bind (contract_protect (fun hs => (hsound hs).1) (by
    rw [Binder.regions, hranges, Option.getD_some])) fun _ => ?_
  refine Contract.assuming fun hends => ?_
  apply Contract.get_bind
  intro s hs
  refine Contract.bind (contract_bindRange (.mswi driver) hs hvacant number) fun table => ?_
  refine Contract.assuming fun htable => ?_
  refine Contract.bind (Contract.modify ?_) fun _ =>
    (contract_log (fun hs => (hsound hs).1) _).breaking fun _ _ => .late
  intro t ht
  rw [ht]
  refine Bound.of_protecting (by rw [Binder.isValid, hdevice]; exact hvalid)
    (by rw [Binder.harts?, hdevice]; rfl) hvacant hranges hends hs ?_ rfl ⟨rfl, rfl, rfl⟩ id
  simpa only [Binder.table, ↓reduceIte] using htable

theorem contract_bindMtimer {driver : DriverId} {number : Nat} {reference : Option Nat}
    (hsound : sound → Linked b ∧ (Binding.mtimer driver number reference).Names b) :
    Contract (· = b) (bindMtimer driver number reference)
      (fun _ => Bound (.mtimer driver) number b)
      (Unbound b ((Binder.mtimer driver).regions b number) sound) := by
  have hlinked : sound → Linked b := fun hs => (hsound hs).1
  refine Contract.bind (contract_mtimer fun hs => (hsound hs).2.1) fun device => ?_
  refine Contract.assuming fun hdevice => ?_
  refine Contract.bind ((checks_validate device.config.isValid).unbound fun _ => trivial)
    fun _ => ?_
  refine Contract.assuming fun hvalid => ?_
  refine Contract.bind ((checks_requireSameFrequency device.config reference).unbound
    fun hs => (hsound hs).2.2) fun _ => ?_
  refine Contract.assuming fun _ => ?_
  apply Contract.get_bind_of_eq
  refine Contract.bind ((checks_requireVacant _ _).unbound fun _ => trivial) fun _ => ?_
  refine Contract.assuming fun hvacant => ?_
  refine Contract.bind (contract_orFault device.config.ranges) fun ranges => ?_
  refine Contract.assuming fun hsum => ?_
  have hconfig : (b.mtimers.map (·.config))[number]? = some device.config := by
    rw [List.getElem?_map, hdevice]
    rfl
  have hranges : (Binder.mtimer driver).ranges? b number = some ranges := by
    rw [Binder.ranges?, hconfig, Option.bind_some, hsum]
    rfl
  refine Contract.bind (contract_protect hlinked (by
    rw [Binder.regions, hranges, Option.getD_some])) fun _ => ?_
  refine Contract.assuming fun hends => ?_
  apply Contract.get_bind
  intro s hs
  refine Contract.bind (contract_bindRange (.mtimer driver) hs hvacant number) fun table => ?_
  refine Contract.assuming fun htable => ?_
  have hset : Contract (· = s) (setMtimerDriver driver fun d => { d with devices := table })
      (fun _ => Bound (.mtimer driver) number b)
      (Unbound b ((Binder.mtimer driver).regions b number) sound) := by
    apply Contract.modify
    intro t ht
    rw [ht]
    refine Bound.of_protecting (by rw [Binder.isValid, hconfig]; exact hvalid)
      (by rw [Binder.harts?, hconfig]; rfl) hvacant hranges hends hs ?_ rfl ⟨rfl, rfl, rfl⟩ ?_
    · simpa only [Binder.table, ↓reduceIte] using htable
    · intro hslinked
      have hnumber : number < s.mtimers.length := by
        rcases hs with ⟨_, _, _, _, _, _, _, _, rfl⟩
        exact (List.getElem?_eq_some_iff.mp hdevice).1
      have hassign : table =
          (s.mtimerDrivers driver).devices.assign device.config.harts number :=
        htable.trans (congrArg (·.assign device.config.harts number)
          (table_of_protecting hs (.mtimer driver)).symm)
      exact linked_assign (fun d => { d with devices := table }) hslinked hnumber hassign
  refine Contract.bind hset fun _ => Contract.breaking ?_ fun _ _ => .late
  cases reference with
  | none => exact contract_announce hlinked device.config
  | some followed =>
      refine Contract.bind (contract_setReference hlinked followed) fun _ => ?_
      exact contract_announce hlinked device.config

end Steps
end Bench

/-!
# Bindings on a machine
-/

theorem Contract.onOutside {α : Type} {before : Bench → Prop} {step : BenchM α}
    {after : α → Bench → Prop} {broken : Exit → Bench → Prop}
    (h : Contract before step after broken) :
    Contract (fun m : Machine => before m.outside) (Ipi.onOutside step)
      (fun value m => after value m.outside) (fun exit m => broken exit m.outside) := by
  intro m hm
  cases hrun : step m.outside with
  | ok value outside =>
      rw [Ipi.onOutside_of_ok hrun]
      exact h.of_ok hm hrun
  | error exit outside =>
      rw [Ipi.onOutside_of_error hrun]
      exact h.of_error hm hrun

theorem Contract.registering {before kept : Machine → Prop} {broken : Exit → Machine → Prop}
    {controller : Controller}
    (hset : ∀ m, before m → kept (m.changing fun d =>
      { d with controller := some (m.dispatcher.controller.getD controller) }))
    (hlog : ∀ entry, Contract kept (Ipi.onOutside (Bench.log entry)) (fun _ => kept) broken) :
    Contract before (Machine.registerController controller) (fun _ => kept) broken := by
  apply Contract.get_bind
  intro m hm
  apply Contract.bind_ok (Ipi.onDispatcher_apply _ m)
  have hlogged (entry : LogRecord) : Contract (· = m.changing fun d =>
      { d with controller := some (m.dispatcher.controller.getD controller) })
      (Ipi.onOutside (Bench.environment.log entry)) (fun _ => kept) broken := by
    apply (hlog entry).weaken _ (fun _ _ h => h) fun _ _ h => h
    intro s hs
    rw [hs]
    exact hset m hm
  split
  · exact hlogged _
  · exact hlogged _

namespace Bench

theorem contract_within {α : Type} {m : Machine} {step : BenchM α} {after : α → Bench → Prop}
    {broken : Exit → Bench → Prop} (h : Contract (· = m.outside) step after broken) :
    Contract (· = m) (Ipi.onOutside step) (fun value m' => after value m'.outside)
      (fun exit m' => m' = m.within m'.outside ∧ broken exit m'.outside) := by
  intro m' hm
  rw [hm]
  cases hrun : step m.outside with
  | ok value outside =>
      rw [Ipi.onOutside_of_ok hrun]
      exact h.of_ok rfl hrun
  | error exit outside =>
      rw [Ipi.onOutside_of_error hrun]
      exact ⟨rfl, h.of_error rfl hrun⟩

theorem contract_registerController {b : Bench} {sound : Prop} {binder : Binder} {number : Nat}
    (hsound : sound → Linked b) (controller : Controller) :
    Contract (fun m : Machine => Bound binder number b m.outside)
      (Machine.registerController controller)
      (fun _ m => Bound binder number b m.outside)
      (fun exit m => Unlogged b (binder.regions b number) sound exit m.outside) :=
  Contract.registering (fun _ hm => hm) fun entry =>
    Contract.onOutside (contract_log hsound entry)

end Bench

namespace Binding

/-- All that a call names is there, and so is all that the timer drivers name. -/
def Sound (b : Bench) (binding : Binding) : Prop := Bench.Linked b ∧ binding.Names b

/-- How a call of a driver ends.  Unless only logging was left, the dispatcher is as it was. -/
theorem contract_run (binding : Binding) (m : Machine) :
    Contract (· = m) binding.run
      (fun _ m' => Bench.Bound binding.binder binding.number m.outside m'.outside)
      (fun exit m' =>
        (m' = m.within m'.outside ∧
          Bench.Unbound m.outside (binding.binder.regions m.outside binding.number)
            (binding.Sound m.outside) exit m'.outside) ∨
        Bench.Unlogged m.outside (binding.binder.regions m.outside binding.number)
          (binding.Sound m.outside) exit m'.outside) := by
  cases binding with
  | mswi driver number =>
      refine Contract.bind ((Bench.contract_within (Bench.contract_bindMswi id)).breaking
        fun _ _ => .inl) fun _ => ?_
      exact (Bench.contract_registerController And.left _).breaking fun _ _ => .inr
  | mtimer driver number reference =>
      exact (Bench.contract_within (Bench.contract_bindMtimer id)).breaking fun _ _ => .inl

end Binding
end Interhart
