import Interhart.Machine.Command
import Interhart.Proofs.Machine.Alignment

/-!
# A device is aligned once

Of all the calls on a device, in whatever order and for whatever harts, one at most moves its
counter: the first alignment that finds a reference, unless the counter is shared.  Every other
alignment is made without a single access, and the device keeps the difference by which it has
been moved.
-/

namespace Interhart

/-!
# Calls on one device
-/

def Command.alignsFor : Command → Option Nat
  | .mtimer _ (.sync hart) | .mtimerDriver _ (.bringUp hart) => some hart
  | _ => none

def Mtimer.Config.compareWrites (config : Config) : Command → List Entry
  | .mtimer _ (.arm hart deadline) => config.armWrites hart deadline
  | .mtimer _ (.disarm hart) | .mtimerDriver _ (.bringUp hart) => config.armWrites hart disarmed
  | _ => []

/-- A command is a call on one device, made by itself or while a hart comes up that is bound to
the device.  The device is told to follow valid devices only. -/
inductive TimerCall (number : Nat) (m : Machine) : Command → Prop
  | direct (command : MtimerCommand)
      (hcandidate : ∀ reference, command = .setReference reference →
        ∃ followed, m.outside.mtimers[reference]? = some followed ∧
          followed.config.isValid = true) : TimerCall number m (.mtimer number command)
  | broughtUp (driver : DriverId) (hart : Nat)
      (hbound : (m.outside.mtimerDrivers driver).devices.get? hart = some number) :
      TimerCall number m (.mtimerDriver driver (.bringUp hart))

structure Past where
  before : Machine
  command : Command
  answer : Answer
  trace : List Entry
  after : Machine

/-- The calls on a device so far, the latest first, each of which has returned.  Between the
calls anything else may happen that leaves the device alone. -/
inductive Calls (number : Nat) (start : Machine) : List Past → Machine → Prop
  | begin : Calls number start [] start
  | call {past : List Past} {m : Machine} {command : Command} {answer : Answer}
      (h : Calls number start past m) (hcall : TimerCall number m command)
      (hreturns : (Machine.step m command).1.outcome = .ok answer) :
      Calls number start
        (⟨m, command, answer, (Machine.step m command).1.trace,
          (Machine.step m command).2⟩ :: past)
        (Machine.step m command).2
  | elsewhere {past : List Past} {m after : Machine} (h : Calls number start past m)
      (hdevice : after.outside.mtimers[number]? = m.outside.mtimers[number]?)
      (hconfigs : after.outside.mtimers.map (·.config) = m.outside.mtimers.map (·.config)) :
      Calls number start past after

namespace Past

/-- The call would align a device, which has a reference and a counter of its own. -/
def Counts (call : Past) (number : Nat) : Prop :=
  call.command.alignsFor ≠ none ∧
    ∃ device, call.before.outside.mtimers[number]? = some device ∧
      device.reference ≠ none ∧ device.config.sharesTime = false

structure Rests (call : Past) (number : Nat) (config : Mtimer.Config) (delta : Option UInt64) :
    Prop where
  before : call.before.delta? number = delta
  after : call.after.delta? number = delta
  asked : call.command = .mtimer number .delta → call.answer = .word? delta
  synced : ∀ hart, call.command = .mtimer number (.sync hart) →
    call.answer = .flag false ∧ call.trace = []
  broughtUp : ∀ hart, call.command.alignsFor = some hart →
    config.Untrapped call.before.outside → call.trace = config.compareWrites call.command
  writes : config.Untrapped call.before.outside →
    call.trace.filter Entry.isWrite = config.compareWrites call.command

/-- The call has moved the counter of a device by a difference, seen from its last reading. -/
structure Aligns (call : Past) (number : Nat) (config : Mtimer.Config) (delta : UInt64) :
    Prop where
  before : call.before.delta? number = none
  after : call.after.delta? number = some delta
  synced : ∀ hart, call.command = .mtimer number (.sync hart) → call.answer = .flag true
  moved : ∃ hart device reference followed last sampled,
    call.command.alignsFor = some hart ∧
      call.before.outside.mtimers[number]? = some device ∧ device.reference = some reference ∧
      call.before.outside.mtimers[reference]? = some followed ∧
      config.Sampled followed.config hart (call.before.begun.outside.beginning number)
        delta last sampled ∧
      (config.Untrapped call.before.outside → call.trace.filter Entry.isWrite =
        config.access.writes Mtimer.parkedTime (config.timeRegister hart) (last + delta) ++
          config.compareWrites call.command)

end Past

/-!
# Single calls
-/

theorem Mtimer.Config.filter_compareWrites (config : Config) (command : Command) :
    (config.compareWrites command).filter Entry.isWrite = config.compareWrites command := by
  unfold compareWrites
  split
  · exact config.filter_armWrites _ _
  · exact config.filter_armWrites _ _
  · exact config.filter_armWrites _ _
  · rfl

def MtimerCommand.isReading : MtimerCommand → Bool
  | .access | .validate | .reference | .time _ | .compare _ | .isPending _ | .delta => true
  | .setReference _ | .arm _ _ | .disarm _ | .sync _ => false

namespace Machine

open Bench

theorem alike_of_onOutside {α : Type} {step : BenchM α} (hpassive : Passive step)
    {m after : Machine} {value : α} (h : Ipi.onOutside step m = .ok value after) :
    Alike m.outside after.outside := by
  rcases Ipi.ok_of_onOutside h with ⟨outside, houtside, rfl⟩
  exact (hpassive m.outside).of_ok (.refl _) houtside

theorem alike_of_reading {m after : Machine} {number : Nat} {device : Mtimer.Device}
    (hfound : m.outside.mtimers[number]? = some device) (hvalid : device.config.isValid = true)
    {command : MtimerCommand} (hreading : command.isReading = true) {answer : Answer}
    (hrun : runMtimer number command m = .ok answer after) :
    Alike m.outside after.outside ∧ (command = .delta → answer = .word? device.delta) := by
  unfold runMtimer at hrun
  rw [bind_of_ok (Ipi.onOutside_of_ok (mtimer_of_some hfound))] at hrun
  cases command with
  | access =>
      cases hrun
      exact ⟨.refl _, nofun⟩
  | reference =>
      cases hrun
      exact ⟨.refl _, nofun⟩
  | delta =>
      cases hrun
      exact ⟨.refl _, fun _ => rfl⟩
  | validate =>
      rcases ok_of_bind_ok hrun with ⟨_, m', hvalidate, hrun⟩
      rw [Mtimer.Config.validate, if_pos hvalid] at hvalidate
      cases hvalidate
      cases hrun
      exact ⟨.refl _, nofun⟩
  | time hart =>
      rcases ok_of_bind_ok hrun with ⟨value, m', htime, hrun⟩
      rw [Mtimer.Config.time_eq] at htime
      cases hrun
      exact ⟨alike_of_onOutside (Passive.accessing _ _) htime, nofun⟩
  | compare hart =>
      rcases ok_of_bind_ok hrun with ⟨value, m', hcompare, hrun⟩
      rw [Mtimer.Config.compare_eq] at hcompare
      cases hrun
      exact ⟨alike_of_onOutside (Mtimer.Config.passive_compare _ _) hcompare, nofun⟩
  | isPending hart =>
      rcases ok_of_bind_ok hrun with ⟨value, m', hpending, hrun⟩
      rw [Mtimer.Config.isPending_eq] at hpending
      cases hrun
      exact ⟨alike_of_onOutside (Mtimer.Config.passive_isPending _ _) hpending, nofun⟩
  | setReference reference => cases hreading
  | arm hart deadline => cases hreading
  | disarm hart => cases hreading
  | sync hart => cases hreading

end Machine

namespace Past

open Bench

variable {number : Nat} {config : Mtimer.Config} {delta : Option UInt64}
  {device device' : Mtimer.Device} {m after : Machine} {command : Command} {answer : Answer}

theorem Rests.of_writes (h : Tended number config delta device m.outside)
    (h' : Tended number config delta device' after.outside)
    (hasked : command = .mtimer number .delta → answer = .word? delta)
    (haligns : command.alignsFor = none)
    (hwrites : config.Untrapped m.outside →
      after.outside.trace.filter Entry.isWrite = (config.compareWrites command).reverse) :
    Rests ⟨m, command, answer, after.outside.trace.reverse, after⟩ number config delta := by
  refine ⟨h.delta?_eq, h'.delta?_eq, hasked, ?_, ?_, ?_⟩
  · intro hart hcommand
    change command = _ at hcommand
    rw [hcommand] at haligns
    cases haligns
  · intro hart hcommand
    change command.alignsFor = _ at hcommand
    rw [haligns] at hcommand
    cases hcommand
  · intro huntrapped
    change after.outside.trace.reverse.filter Entry.isWrite = config.compareWrites command
    rw [List.filter_reverse, hwrites huntrapped, List.reverse_reverse]

theorem rests_of_direct (h : Tended number config delta device m.outside)
    (hvalid : config.isValid = true) {command : MtimerCommand}
    (hcandidate : ∀ reference, command = .setReference reference →
      ∃ followed, m.outside.mtimers[reference]? = some followed ∧
        followed.config.isValid = true)
    (haligns : (Command.mtimer number command).alignsFor = none)
    (hrun : Machine.runMtimer number command m.begun = .ok answer after) :
    Rests ⟨m, .mtimer number command, answer, after.outside.trace.reverse, after⟩ number config
        delta ∧ ∃ device', Tended number config delta device' after.outside := by
  have hbegun : Tended number config delta device m.begun.outside :=
    (Tended.lasting number config delta device) m.outside _ _ _ _ _ (List.Subset.refl _) h
  have harm {hart : Nat} {deadline : UInt64}
      (hrun : (config.arm hart deadline : MachineM Unit) m.begun = .ok () after)
      (hasked : command = .delta → answer = .word? delta)
      (hwrites : config.compareWrites (.mtimer number command) =
        config.armWrites hart deadline) :
      Rests ⟨m, .mtimer number command, answer, after.outside.trace.reverse,
          after⟩ number config delta ∧ ∃ device',
          Tended number config delta device' after.outside := by
    rcases hbegun.arming hvalid hrun with ⟨hafter, htrace⟩
    refine ⟨.of_writes h hafter (fun hdelta => hasked (by cases hdelta; rfl)) haligns ?_,
      device, hafter⟩
    intro huntrapped
    rw [htrace huntrapped, hwrites, List.filter_append, List.filter_reverse,
      config.filter_armWrites]
    exact List.append_nil _
  by_cases hreading : command.isReading = true
  · rcases Machine.alike_of_reading hbegun.found (by rw [hbegun.config]; exact hvalid)
      hreading hrun with ⟨halike, hasked⟩
    have hafter := (Tended.lasting number config delta device).alike halike hbegun
    refine ⟨.of_writes h hafter (fun hdelta => ?_) haligns ?_, device, hafter⟩
    · rw [← h.delta]
      exact hasked (by cases hdelta; rfl)
    · intro _
      rw [halike.filter_trace]
      cases command with
      | arm hart deadline => cases hreading
      | disarm hart => cases hreading
      | _ => rfl
  · unfold Machine.runMtimer at hrun
    rw [bind_of_ok (Ipi.onOutside_of_ok (mtimer_of_some hbegun.found)), hbegun.config] at hrun
    cases command with
    | setReference reference =>
        rcases ok_of_bind_ok hrun with ⟨_, m', hset, hpure⟩
        cases hpure
        rcases hbegun.following (hcandidate reference rfl) hset with ⟨⟨device', hafter⟩, htrace⟩
        exact ⟨.of_writes h hafter nofun haligns fun _ => htrace, device', hafter⟩
    | arm hart deadline =>
        rcases ok_of_bind_ok hrun with ⟨_, m', harmed, hpure⟩
        cases hpure
        exact harm harmed nofun rfl
    | disarm hart =>
        rcases ok_of_bind_ok hrun with ⟨_, m', harmed, hpure⟩
        cases hpure
        exact harm harmed nofun rfl
    | sync hart => cases haligns
    | _ => exact absurd rfl hreading

theorem exists_sync (hvalid : config.isValid = true) (hcall : TimerCall number m command)
    {hart : Nat} (haligns : command.alignsFor = some hart)
    (hfound : m.begun.outside.mtimers[number]? = some device)
    (hrun : Machine.run command m.begun = .ok answer after) :
    ∃ flag between, Machine.sync number hart m.begun = .ok flag between ∧
      (∀ asked, command = .mtimer number (.sync asked) →
        answer = .flag flag ∧ after = between) ∧
      ∀ delta device, Tended number config delta device between.outside →
        Tended number config delta device after.outside ∧
          (config.Untrapped between.outside → after.outside.trace =
            (config.compareWrites command).reverse ++ between.outside.trace) := by
  cases hcall with
  | direct command hcandidate =>
      cases command with
      | sync asked =>
          cases haligns
          change Machine.runMtimer number (.sync hart) m.begun = _ at hrun
          unfold Machine.runMtimer at hrun
          rw [bind_of_ok (Ipi.onOutside_of_ok (mtimer_of_some hfound))] at hrun
          rcases ok_of_bind_ok hrun with ⟨flag, between, hsync, hpure⟩
          cases hpure
          exact ⟨flag, after, hsync, fun _ _ => ⟨rfl, rfl⟩, fun _ _ h => ⟨h, fun _ => rfl⟩⟩
      | _ => cases haligns
  | broughtUp driver asked hbound =>
      cases haligns
      rcases ok_of_bind_ok hrun with ⟨_, after', hbring, hpure⟩
      cases hpure
      have hstill : (m.begun.outside.mtimerDrivers driver).devices.get? hart = some number :=
        hbound
      rcases Machine.ok_of_driverBringUpTimer hstill hbring with
        ⟨flag, between, device', hsync, hdevice', hdisarm⟩
      refine ⟨flag, between, hsync, nofun, fun delta device'' h => ?_⟩
      have hsame := hdevice'.symm.trans h.found
      cases hsame
      rw [h.config] at hdisarm
      exact h.arming hvalid hdisarm

/-- What one call does: it moves the counter if it is the first that
counts, and rests otherwise. -/
theorem aligns_or_rests (h : Tended number config delta device m.outside)
    (hvalid : config.isValid = true) (hcall : TimerCall number m command)
    (hrun : Machine.run command m.begun = .ok answer after) :
    let call : Past := ⟨m, command, answer, after.outside.trace.reverse, after⟩
    (delta = none ∧ call.Counts number ∧ ∃ moved device',
      call.Aligns number config moved ∧
        Tended number config (some moved) device' after.outside) ∨
    ((delta = none → ¬call.Counts number) ∧ call.Rests number config delta ∧
      ∃ device', Tended number config delta device' after.outside) := by
  have hbegun : Tended number config delta device m.begun.outside :=
    (Tended.lasting number config delta device) m.outside _ _ _ _ _ (List.Subset.refl _) h
  have hcounts {hart : Nat} (haligns : command.alignsFor = some hart) :
      (delta = none ∧ Counts ⟨m, command, answer, after.outside.trace.reverse, after⟩ number) ↔
        device.IsDue := by
    rw [h.isDue_iff]
    constructor
    · intro hcounted
      rcases hcounted with ⟨hnone, _, found, hfound, hopen⟩
      have hsame := hfound.symm.trans h.found
      cases hsame
      exact ⟨hnone, hopen⟩
    · intro hopen
      exact ⟨hopen.1, by rw [haligns]; exact Option.some_ne_none _, device, h.found, hopen.2⟩
  cases haligns : command.alignsFor with
  | none =>
      refine .inr ⟨fun _ hcounted => hcounted.1 haligns, ?_⟩
      cases hcall with
      | direct command hcandidate => exact rests_of_direct h hvalid hcandidate haligns hrun
      | broughtUp driver hart hbound => cases haligns
  | some hart =>
      rcases exists_sync hvalid hcall haligns hbegun.found hrun with
        ⟨flag, between, hsync, hsynced, htail⟩
      by_cases hdue : device.IsDue
      · rcases (hcounts haligns).mpr hdue with ⟨hnone, hcounted⟩
        rcases hbegun.syncing hvalid hdue hsync with ⟨rfl, reference, followed, moved,
          last, sampled, hreference, hfollowed, hsampled, ⟨device', hbetween⟩, htrace⟩
        rcases htail _ _ hbetween with ⟨hafter, hwrites⟩
        refine .inl ⟨hnone, hcounted, moved, device', ⟨?_, hafter.delta?_eq, ?_, ?_⟩, hafter⟩
        · exact h.delta?_eq.trans hnone
        · exact fun asked hcommand => (hsynced asked hcommand).1
        · refine ⟨hart, device, reference, followed, last, sampled, haligns, h.found,
            hreference, hfollowed, hsampled, ?_⟩
          intro huntrapped
          rcases htrace huntrapped with ⟨hsafe, hfiltered⟩
          change after.outside.trace.reverse.filter Entry.isWrite = _
          rw [List.filter_reverse, hwrites hsafe, List.filter_append, hfiltered,
            List.filter_reverse, config.filter_compareWrites, List.reverse_append,
            List.reverse_append, List.reverse_reverse, List.reverse_reverse]
          rfl
      · have hidle : Machine.sync number hart m.begun = .ok false m.begun :=
          Machine.sync_of_idle hbegun.found hdue
        cases hsync.symm.trans hidle
        rcases htail _ _ hbegun with ⟨hafter, hwrites⟩
        refine .inr ⟨fun hnone hcounted => hdue ((hcounts haligns).mp ⟨hnone, hcounted⟩),
          ⟨h.delta?_eq, hafter.delta?_eq, ?_, ?_, ?_, ?_⟩, device, hafter⟩
        · intro hdelta
          cases hdelta
          cases haligns
        · intro asked hcommand
          rcases hsynced asked hcommand with ⟨hanswer, rfl⟩
          exact ⟨hanswer, rfl⟩
        · intro _ _ huntrapped
          change after.outside.trace.reverse = _
          rw [hwrites huntrapped, List.reverse_append, List.reverse_reverse]
          rfl
        · intro huntrapped
          change after.outside.trace.reverse.filter Entry.isWrite = _
          rw [hwrites huntrapped, List.reverse_append, List.reverse_reverse, List.filter_append,
            config.filter_compareWrites]
          rfl

end Past

/-!
# Calls that return

While no log is kept and no hart is interrupted, a call on a device can only be held up by a
register that it reads.
-/

namespace Bench

structure Ready (number : Nat) (config : Mtimer.Config) (reference : Option Nat) (b : Bench) :
    Prop where
  present : ∃ device, b.mtimers[number]? = some device ∧ device.config = config ∧
    device.reference = reference
  followed : ∀ place, reference = some place →
    ∃ followed, b.mtimers[place]? = some followed ∧ followed.config.isValid = true
  untrapped : config.Untrapped b
  off : b.logger.isOff = true

end Bench

namespace Machine

open Bench

def Returns {α : Type} (number : Nat) (config : Mtimer.Config) (reference : Option Nat)
    (operation : MachineM α) : Prop :=
  Contract (fun m : Machine => Ready number config reference m.outside) operation
    (fun _ m => Ready number config reference m.outside) fun exit _ => exit = .exhausted

namespace Returns

variable {α β : Type} {number hart : Nat} {config : Mtimer.Config} {reference : Option Nat}

theorem lasting (number : Nat) (config : Mtimer.Config) (reference : Option Nat) :
    Lasting (Ready number config reference) :=
  fun _ _ _ _ _ _ _ h => ⟨h.present, h.followed, h.untrapped, h.off⟩

theorem value (value : α) : Returns number config reference (pure value) :=
  Contract.value fun _ h => h

theorem bind {first : MachineM α} {rest : α → MachineM β}
    (hfirst : Returns number config reference first)
    (hrest : ∀ value, Returns number config reference (rest value)) :
    Returns number config reference (first >>= rest) :=
  Contract.bind hfirst hrest

theorem reading (access : RegisterAccess) {address : UInt64}
    (haligned : 8 ∣ address.toNat) :
    Returns number config reference (access.read address) := by
  intro m hm
  rw [Machine.read_eq]
  have hread := contract_read access haligned m.outside
  cases hrun : (access.read address : BenchM UInt64) m.outside with
  | ok value outside =>
      rw [Ipi.onOutside_of_ok hrun]
      exact (lasting _ _ _).alike (hread.of_ok (.refl _) hrun) hm
  | error exit outside =>
      rw [Ipi.onOutside_of_error hrun]
      exact (hread.of_error (.refl _) hrun).1

theorem writing (access : RegisterAccess) (parked : UInt32) {address : UInt64}
    (haligned : 8 ∣ address.toNat)
    (huntrapped : ∀ b, config.Untrapped b → b.Untrapped address) (value : UInt64) :
    Returns number config reference (access.write parked address value) := by
  intro m hm
  have hkeeps := (lasting number config reference).accessing access parked address value
  have hwrite := write_of_untrapped access parked haligned (huntrapped _ hm.untrapped) value
  rw [hwrite]
  exact hkeeps.of_ok hm hwrite

theorem arming (hvalid : config.isValid = true) (deadline : UInt64) :
    Returns number config reference (config.arm hart deadline) := by
  unfold Mtimer.Config.arm
  cases hregister : config.compareRegister? hart with
  | none => exact value ()
  | some address =>
      exact writing _ _ (Mtimer.Config.dvd_compareRegister hvalid hregister)
        (fun _ h => (h hart).2 address hregister) deadline

theorem marking (change : Mtimer.Device → Mtimer.Device)
    (hchange : ∀ d, (change d).config = d.config ∧ (change d).reference = d.reference) :
    Returns number config reference (Ipi.onOutside (setMtimer number change)) := by
  intro m hm
  rcases hm.present with ⟨device, hdevice, hconfig, hreference⟩
  refine ⟨⟨change device, ?_, (hchange device).1.trans hconfig,
    (hchange device).2.trans hreference⟩, ?_, hm.untrapped, hm.off⟩
  · change (m.outside.mtimers.modify number change)[number]? = _
    rw [List.getElem?_modify_eq, hdevice]
    rfl
  · intro place hplace
    rcases hm.followed place hplace with ⟨followed, hfollowed, hvalid⟩
    rcases exists_getElem?_modify number change (fun d => (hchange d).1) hfollowed with
      ⟨changed, hchanged, hsame⟩
    exact ⟨changed, hchanged, by rw [hsame, hvalid]⟩

theorem logging (entry : LogRecord) :
    Returns number config reference (Ipi.onOutside (log entry)) := by
  intro m hm
  rw [Ipi.onOutside_of_ok (log_of_isOff hm.off entry)]
  exact hm

theorem aligning {other : Mtimer.Config} (hvalid : config.isValid = true)
    (hother : other.isValid = true) :
    Returns number config reference (config.align other hart) := by
  have hown : Returns number config reference (config.time hart) :=
    reading config.access (Mtimer.Config.dvd_timeRegister hvalid hart)
  have hthere : Returns number config reference (other.time hart) :=
    reading other.access (Mtimer.Config.dvd_timeRegister hother hart)
  refine hown.bind fun before => hthere.bind fun there => hown.bind fun after => ?_
  refine hown.bind fun last => Returns.bind ?_ fun _ => value _
  exact writing _ _ (Mtimer.Config.dvd_timeRegister hvalid hart) (fun _ h => (h hart).1) _

theorem syncing (hvalid : config.isValid = true) :
    Returns number config reference (sync number hart) := by
  intro m hm
  rcases hm.present with ⟨device, hdevice, hconfig, hreference⟩
  by_cases hdue : device.IsDue
  · rcases Option.ne_none_iff_exists'.mp hdue.1 with ⟨place, hplace⟩
    rw [sync_of_due hdevice hdue hplace]
    have hbegun : Ready number config reference
        (m.within (m.outside.beginning number)).outside :=
      (marking (fun d => { d with aligned := true }) fun _ => ⟨rfl, rfl⟩).of_ok hm rfl
    rcases hbegun.followed place (hreference.symm.trans hplace) with
      ⟨followed, hfollowed, hfollowedValid⟩
    rw [bind_of_ok (Ipi.onOutside_of_ok (mtimer_of_some hfollowed)), hconfig]
    refine Returns.bind (aligning hvalid hfollowedValid) (fun delta => ?_) _ hbegun
    rw [Ipi.onOutside_bind]
    refine Returns.bind (Returns.bind (marking _ fun _ => ⟨rfl, rfl⟩) fun _ => logging _)
      fun _ => ?_
    exact value true
  · rw [sync_of_idle hdevice hdue]
    exact hm

theorem looking : Contract (fun m : Machine => Ready number config reference m.outside)
    (Ipi.onOutside (mtimer number))
    (fun device m => Ready number config reference m.outside ∧ device.config = config)
    fun exit _ => exit = .exhausted := by
  intro m hm
  rcases hm.present with ⟨device, hdevice, hconfig, _⟩
  rw [Ipi.onOutside_of_ok (mtimer_of_some hdevice)]
  exact ⟨hm, hconfig⟩

theorem comparing (hvalid : config.isValid = true) :
    Returns number config reference (config.compare hart) := by
  unfold Mtimer.Config.compare
  cases hregister : config.compareRegister? hart with
  | none => exact value none
  | some address =>
      exact (reading _ (Mtimer.Config.dvd_compareRegister hvalid hregister)).bind
        fun _ => value _

theorem timing (hvalid : config.isValid = true) :
    Returns number config reference (config.time hart) :=
  reading config.access (Mtimer.Config.dvd_timeRegister hvalid hart)

theorem referring (other : Nat) :
    Contract (fun m : Machine => Ready number config reference m.outside)
      (Ipi.onOutside (setReference number other)) (fun _ _ => True)
      fun exit _ => exit = .exhausted := by
  intro m hm
  rcases hm.present with ⟨found, hfound, _⟩
  have hrun : setReference number other m.outside =
      (if number = other then log found.config.selfReferenceRecord
        else setMtimer number fun d =>
          { d with reference := some (d.reference.getD other) }) m.outside :=
    bind_of_ok (mtimer_of_some hfound)
  rw [Machine.onOutside_congr hrun]
  by_cases hself : number = other
  · rw [if_pos hself, Ipi.onOutside_of_ok (log_of_isOff hm.off _)]
    trivial
  · rw [if_neg hself]
    trivial

theorem contract_runMtimer (hvalid : config.isValid = true) (command : MtimerCommand) :
    Contract (fun m : Machine => Ready number config reference m.outside)
      (runMtimer number command) (fun _ _ => True) fun exit _ => exit = .exhausted := by
  refine Contract.bind looking fun device => Contract.assuming ?_
  intro hconfig
  rw [hconfig]
  have hdone {α : Type} {operation : MachineM α}
      (h : Returns number config reference operation) :
      Contract (fun m : Machine => Ready number config reference m.outside) operation
        (fun _ _ => True) fun exit _ => exit = .exhausted :=
    h.weaken (fun _ hm => hm) (fun _ _ _ => trivial) fun _ _ h => h
  cases command with
  | access => exact hdone (value _)
  | reference => exact hdone (value _)
  | delta => exact hdone (value _)
  | validate =>
      dsimp only
      rw [Mtimer.Config.validate, if_pos hvalid]
      exact hdone (value _)
  | setReference other =>
      exact (referring other).bind fun _ => Contract.value fun _ _ => trivial
  | time hart => exact hdone ((timing hvalid).bind fun _ => value _)
  | compare hart => exact hdone ((comparing hvalid).bind fun _ => value _)
  | arm hart deadline => exact hdone ((arming hvalid deadline).bind fun _ => value _)
  | disarm hart => exact hdone ((arming hvalid Mtimer.disarmed).bind fun _ => value _)
  | isPending hart =>
      refine hdone (Returns.bind ((comparing hvalid).bind fun deadline => ?_) fun _ => value _)
      cases deadline with
      | none => exact value none
      | some deadline => exact (timing hvalid).bind fun _ => value _
  | sync hart => exact hdone ((syncing hvalid).bind fun _ => value _)

theorem contract_bringUp (hvalid : config.isValid = true) (driver : DriverId) :
    Contract (fun m : Machine => Ready number config reference m.outside ∧
        (m.outside.mtimerDrivers driver).devices.get? hart = some number)
      (driverBringUpTimer driver hart) (fun _ _ => True) fun exit _ => exit = .exhausted := by
  intro m hm
  unfold driverBringUpTimer
  rw [bind_of_ok (Ipi.onOutside_of_ok (mtimerServing_apply driver hart m.outside)), hm.2]
  refine Contract.bind (syncing hvalid).discard (fun _ => ?_) m hm.1
  refine Contract.bind looking fun device => Contract.assuming ?_
  intro hconfig
  rw [hconfig]
  exact (arming hvalid Mtimer.disarmed).weaken (fun _ hm => hm) (fun _ _ _ => trivial)
    fun _ _ h => h

theorem ready_of_tended {delta : Option UInt64} {device : Mtimer.Device} {b : Bench}
    (h : Tended number config delta device b) (huntrapped : config.Untrapped b)
    (hoff : b.logger.isOff = true) : Ready number config device.reference b :=
  ⟨⟨device, h.found, h.config, rfl⟩, h.followed, huntrapped, hoff⟩

theorem outcome_of_ready (hvalid : config.isValid = true) {m : Machine}
    (hm : Ready number config reference m.outside) {command : Command}
    (hcall : TimerCall number m command) :
    (∃ answer, (step m command).1.outcome = .ok answer) ∨
      (step m command).1.outcome = .error .exhausted := by
  have hbegun : Ready number config reference m.begun.outside :=
    lasting number config reference m.outside _ _ _ _ _ (List.Subset.refl _) hm
  have hrun : ∀ exit after, run command m.begun = .error exit after → exit = .exhausted := by
    intro exit after h
    cases hcall with
    | direct command hcandidate => exact (contract_runMtimer hvalid command).of_error hbegun h
    | broughtUp driver hart hbound =>
        have hsilent : Contract (fun m : Machine => Ready number config reference m.outside ∧
            (m.outside.mtimerDrivers driver).devices.get? hart = some number)
            (silently (driverBringUpTimer driver hart)) (fun _ _ => True)
            fun exit _ => exit = .exhausted :=
          (contract_bringUp hvalid driver).bind fun _ => Contract.value fun _ _ => trivial
        exact hsilent.of_error ⟨hbegun, hbound⟩ h
  rw [step_eq]
  cases h : run command m.begun with
  | ok answer after => exact .inl ⟨answer, rfl⟩
  | error exit after =>
      rw [hrun exit after h]
      exact .inr rfl

end Returns
end Machine

/-!
# Runs of calls
-/

def Waiting (number : Nat) (config : Mtimer.Config) (past : List Past) : Prop :=
  ∀ call ∈ past, ¬call.Counts number ∧ call.Rests number config none

/-- The first call that counts has moved the counter of a device, and no other call has. -/
def MovedOnce (number : Nat) (config : Mtimer.Config) (delta : UInt64)
    (past : List Past) : Prop :=
  ∃ later first earlier, past = later ++ first :: earlier ∧ Waiting number config earlier ∧
    first.Counts number ∧ first.Aligns number config delta ∧
    ∀ call ∈ later, call.Rests number config (some delta)

namespace Calls

open Bench

variable {number : Nat} {config : Mtimer.Config} {start m : Machine} {past : List Past}

def Accounted (number : Nat) (config : Mtimer.Config) (past : List Past) :
    Option UInt64 → Prop
  | none => Waiting number config past
  | some delta => MovedOnce number config delta past

theorem tended (h : Calls number start past m) (hvalid : config.isValid = true)
    (hfresh : start.outside.mtimers[number]? = some { config := config }) :
    ∃ delta device, Tended number config delta device m.outside ∧
      Accounted number config past delta := by
  induction h with
  | begin =>
      refine ⟨none, { config := config }, ⟨hfresh, rfl, rfl, rfl, nofun⟩, ?_⟩
      exact fun _ hmem => absurd hmem List.not_mem_nil
  | call h hcall hreturns ih =>
      rcases ih with ⟨delta, device, htended, haccounted⟩
      rcases Machine.ok_of_step hreturns with ⟨hrun, htrace⟩
      rw [htrace]
      rcases Past.aligns_or_rests htended hvalid hcall hrun with
        ⟨rfl, hcounts, moved, device', haligns, hafter⟩ | ⟨hcounts, hrests, device', hafter⟩
      · exact ⟨some moved, device', hafter, [], _, _, rfl, haccounted, hcounts, haligns,
          fun _ hmem => absurd hmem List.not_mem_nil⟩
      · refine ⟨delta, device', hafter, ?_⟩
        cases delta with
        | none => exact List.forall_mem_cons.mpr ⟨⟨hcounts rfl, hrests⟩, haccounted⟩
        | some delta =>
            rcases haccounted with ⟨later, first, earlier, rfl, hwaiting, hfirst,
              haligns, hlater⟩
            exact ⟨_ :: later, first, earlier, rfl, hwaiting, hfirst, haligns,
              List.forall_mem_cons.mpr ⟨hrests, hlater⟩⟩
  | elsewhere h hdevice hconfigs ih =>
      rcases ih with ⟨delta, device, htended, haccounted⟩
      refine ⟨delta, device, ⟨hdevice.trans htended.found, htended.config, htended.aligned,
        htended.delta, ?_⟩, haccounted⟩
      intro reference hreference
      rcases htended.followed reference hreference with ⟨followed, hfollowed, hfollowedValid⟩
      have hsame := congrArg (·[reference]?) hconfigs
      simp only [List.getElem?_map, hfollowed, Option.map_some] at hsame
      rcases Option.map_eq_some_iff.mp hsame with ⟨kept, hkept, hconfig⟩
      exact ⟨kept, hkept, by rw [hconfig, hfollowedValid]⟩

/-- The first call that counts moves the counter, by the difference that the device keeps from
then on, and every other call leaves the counter alone.  While no log is kept and no hart is
interrupted, the next call returns as well, unless a register cannot be read. -/
theorem moved_once (h : Calls number start past m) (hvalid : config.isValid = true)
    (hfresh : start.outside.mtimers[number]? = some { config := config }) :
    ((Waiting number config past ∧ m.delta? number = none) ∨
      ∃ delta, MovedOnce number config delta past ∧ m.delta? number = some delta) ∧
    ∀ command, TimerCall number m command → config.Untrapped m.outside →
      m.outside.logger.isOff = true →
      (∃ answer, (Machine.step m command).1.outcome = .ok answer) ∨
        (Machine.step m command).1.outcome = .error .exhausted := by
  rcases h.tended hvalid hfresh with ⟨delta, device, htended, haccounted⟩
  constructor
  · cases delta with
    | none => exact .inl ⟨haccounted, htended.delta?_eq⟩
    | some delta => exact .inr ⟨delta, haccounted, htended.delta?_eq⟩
  · intro command hcall huntrapped hoff
    exact Machine.Returns.outcome_of_ready hvalid
      (Machine.Returns.ready_of_tended htended huntrapped hoff) hcall

def lateDevice : Mtimer.Device :=
  { config :=
    { timeBase := 0x1000, timeSize := 8, compareBase := 0x2000, compareSize := 16
      frequency := 10000000, harts := ⟨0, 2⟩, supportsWhole := true, sharesTime := false
      windows := [] } }

def earlyDevice : Mtimer.Device :=
  { config := { lateDevice.config with timeBase := 0x3000, compareBase := 0x4000 } }

def pairedMachine : Machine :=
  { outside :=
    { mtimers := [lateDevice, earlyDevice]
      bus :=
        { memory := fun a => if a = 0x1000 then 20 else if a = 0x3000 then 1000 else 0 } } }

def alignedPair : Machine :=
  (Machine.step (Machine.step (Machine.step pairedMachine (.mtimer 0 (.sync 0))).2
    (.mtimer 0 (.setReference 1))).2 (.mtimer 0 (.sync 1))).2

theorem exists_calls_alignedPair : ∃ past, Calls 0 pairedMachine past alignedPair := by
  have hearly : Calls 0 pairedMachine _ _ := Calls.begin.call (.direct (.sync 0) nofun) rfl
  have hreference := hearly.call (.direct (.setReference 1) ?_) rfl
  · exact ⟨_, hreference.call (.direct (.sync 1) nofun) rfl⟩
  · intro reference hcommand
    cases hcommand
    exact ⟨earlyDevice, rfl, by decide⟩

theorem moved_once_alignedPair :
    (∃ past, Calls 0 pairedMachine past alignedPair ∧
      MovedOnce 0 lateDevice.config 980 past) ∧
      ((∃ answer, (Machine.step alignedPair (.mtimer 0 (.sync 0))).1.outcome = .ok answer) ∨
        (Machine.step alignedPair (.mtimer 0 (.sync 0))).1.outcome = .error .exhausted) := by
  rcases exists_calls_alignedPair with ⟨past, hcalls⟩
  have hdelta : alignedPair.delta? 0 = some 980 := rfl
  rcases moved_once hcalls (by decide) rfl with ⟨hmoved, hreturns⟩
  constructor
  · refine ⟨past, hcalls, ?_⟩
    rcases hmoved with ⟨_, hnone⟩ | ⟨delta, hmoved, hsome⟩
    · rw [hdelta] at hnone
      cases hnone
    · rw [hdelta] at hsome
      cases hsome
      exact hmoved
  · exact hreturns _ (.direct (.sync 0) nofun) (fun _ => ⟨⟨rfl, rfl⟩,
      fun _ _ => ⟨rfl, rfl⟩⟩) rfl

end Calls

end Interhart
