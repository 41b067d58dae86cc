import Interhart.Proofs.Domain.Room
import Interhart.Proofs.Machine.Exactness

/-!
# Faults of a driver

With the log switched off, a driver that takes a device on succeeds or is refused, unless a sum
overflows.  There are two of these: the sum of the sizes of the two register blocks of a timer
device, and the position behind a piece that ends with the address space.  Such a piece is
recorded first, so the table of regions must have room up to it.
-/

namespace Interhart

/-!
# How an operation ends
-/

/-- An operation is broken off: by an overflow if there is one to come, and by a refusal if
there is none. -/
def Ending (overflows : Prop) (exit : Exit) : Prop :=
  (exit = .fault .sumOverflow ∧ overflows) ∨ (∃ error, exit = .refused error) ∧ ¬overflows

theorem Ending.refused {overflows : Prop} (error : Error) (h : ¬overflows) :
    Ending overflows (.refused error) :=
  .inr ⟨⟨error, rfl⟩, h⟩

namespace Bench

variable {b : Bench}

/-!
# Protecting ranges without a log
-/

theorem logging_of_isOff {after : Bench → Prop} {broken : Exit → Bench → Prop}
    (hoff : b.logger.isOff = true) (h : after b) (entry : LogRecord) :
    Contract (· = b) (log entry) (fun _ => after) broken := by
  intro s hs
  rw [hs, log_of_isOff hoff]
  exact h

/-- What is known once some regions are recorded: nothing has changed but the domain, which has
room for others if it had room for all. -/
def Recorded (b : Bench) (regions : List Region) (s : Bench) : Prop :=
  ∃ grown, s = { b with domain := grown } ∧
    ∀ more, grown.HasRoom more ↔ b.domain.HasRoom (regions ++ more)

def Crowded (b : Bench) (regions : List Region) (exit : Exit) : Prop :=
  (∃ error, exit = .refused error) ∧ ∀ more, ¬b.domain.HasRoom (regions ++ more)

theorem recordRegion_of_isOff (hoff : b.logger.isOff = true) (region : Region) :
    Contract (· = b) (recordRegion region) (fun _ => Recorded b [region])
      (fun exit _ => Crowded b [region] exit) := by
  apply Contract.get_bind_of_eq
  cases hrecord : b.domain.record region with
  | error error =>
      have hrefused : (orRefuse (b.domain.record region) : BenchM Domain) b =
          .error (.refused error) b := by
        rw [hrecord]
        rfl
      exact .bind_error hrefused ⟨⟨error, rfl⟩, Domain.not_hasRoom_of_record hrecord⟩
  | ok grown =>
      have hgrown : (orRefuse (b.domain.record region) : BenchM Domain) b = .ok grown b := by
        rw [hrecord]
        rfl
      have hrecorded : Recorded b [region] { b with domain := grown } :=
        ⟨grown, rfl, Domain.hasRoom_of_record hrecord⟩
      refine .bind_ok hgrown (.bind_ok (t := { b with domain := grown }) rfl ?_)
      split
      · exact logging_of_isOff (b := { b with domain := grown }) hoff hrecorded _
      · exact Contract.value fun s hs => hs ▸ hrecorded

theorem records_of_isOff (hoff : b.logger.isOff = true) (regions : List Region) :
    Contract (· = b) (regions.forM recordRegion) (fun _ => Recorded b regions)
      (fun exit _ => Crowded b regions exit) := by
  induction regions generalizing b with
  | nil =>
      intro s hs
      exact ⟨b.domain, hs, fun _ => Iff.rfl⟩
  | cons region regions ih =>
      refine Contract.bind ((recordRegion_of_isOff hoff region).breaking ?_) fun _ => ?_
      · intro exit _ hcrowded
        exact ⟨hcrowded.1, fun more => hcrowded.2 (regions ++ more)⟩
      · rintro _ ⟨grown, rfl, hroom⟩
        refine (ih (b := { b with domain := grown }) hoff).weaken (fun _ h => h) ?_ ?_ _ rfl
        · rintro _ s ⟨domain, rfl, hmore⟩
          exact ⟨domain, rfl, fun more => (hmore more).trans (hroom _)⟩
        · rintro exit s ⟨herror, hmore⟩
          exact ⟨herror, fun more hfits => hmore more ((hroom _).mpr hfits)⟩

theorem protectRange_of_isOff (hoff : b.logger.isOff = true) {range : UInt64 × UInt64}
    (haligned : 8 ∣ range.1.toNat) (ranges : List (UInt64 × UInt64)) :
    Contract (· = b) (protectRange range.1 range.2 Mtimer.pieceLimit)
      (fun _ s => Recorded b (Domain.rangeRegions Mtimer.pieceLimit range) s ∧
        ¬Domain.RunsOver Mtimer.pieceLimit range)
      (fun exit _ => Ending (b.domain.Breaks Mtimer.pieceLimit (range :: ranges)) exit) := by
  have hover := Domain.rangeOverruns_iff Mtimer.isLimit_pieceLimit haligned
  rw [protectRange_eq (by decide)]
  refine Contract.bind ((records_of_isOff hoff _).breaking ?_) fun _ => ?_
  · intro exit _ hcrowded
    exact .inr ⟨hcrowded.1, Domain.not_breaks_of_not_hasRoom hcrowded.2⟩
  · cases hoverruns : Domain.rangeOverruns Mtimer.pieceLimit range with
    | true =>
        refine Contract.exit fun s hs => .inl ⟨rfl, ?_⟩
        rcases hs with ⟨grown, _, hroom⟩
        have hfits := (hroom []).mp (Domain.hasRoom_nil grown)
        rw [List.append_nil] at hfits
        exact Domain.breaks_of_runsOver (hover.mp hoverruns) hfits
    | false =>
        refine Contract.value fun s hs => ⟨hs, fun hruns => ?_⟩
        rw [hover.mpr hruns] at hoverruns
        cases hoverruns

theorem protecting_of_isOff (hoff : b.logger.isOff = true) {ranges : List (UInt64 × UInt64)}
    (haligned : ∀ range ∈ ranges, 8 ∣ range.1.toNat) :
    Contract (· = b)
      (ranges.forM fun (base, size) => protectRange base size Mtimer.pieceLimit)
      (fun _ s => (∃ grown, s = { b with domain := grown }) ∧
        ¬b.domain.Breaks Mtimer.pieceLimit ranges)
      (fun exit _ => Ending (b.domain.Breaks Mtimer.pieceLimit ranges) exit) := by
  induction ranges generalizing b with
  | nil =>
      intro s hs
      refine ⟨⟨b.domain, hs⟩, Domain.not_breaks_of_not_runsOver ?_⟩
      exact fun _ hmem => absurd hmem List.not_mem_nil
  | cons range ranges ih =>
      rcases List.forall_mem_cons.mp haligned with ⟨hrange, hranges⟩
      refine (protectRange_of_isOff hoff hrange ranges).bind fun _ => ?_
      rintro _ ⟨⟨grown, rfl, hroom⟩, hruns⟩
      -- Whether a range is reached that runs over is decided by the others from here on.
      have hbreaks : b.domain.Breaks Mtimer.pieceLimit (range :: ranges) ↔
          grown.Breaks Mtimer.pieceLimit ranges :=
        Domain.breaks_cons_iff hruns hroom
      refine (ih (b := { b with domain := grown }) hoff hranges).weaken (fun _ h => h)
        ?_ ?_ _ rfl
      · rintro _ s ⟨⟨domain, rfl⟩, hrest⟩
        exact ⟨⟨domain, rfl⟩, fun h => hrest (hbreaks.mp h)⟩
      · intro exit s hending
        rwa [hbreaks]

theorem Checks.ending {condition named overflows : Prop} {check : BenchM Unit}
    {rest : Unit → BenchM Unit} {after : Unit → Bench → Prop}
    (hcheck : Checks b condition named check) (hneeds : overflows → condition)
    (hrest : condition → Contract (· = b) (rest ()) after fun exit _ => Ending overflows exit) :
    Contract (· = b) (check >>= rest) after fun exit _ => Ending overflows exit := by
  refine Contract.bind (hcheck.breaking ?_) fun _ => Contract.assuming hrest
  intro exit _ hrefused
  rcases hrefused with ⟨_, hcondition, error, hexit, _⟩
  exact .inr ⟨⟨error, hexit⟩, fun h => hcondition (hneeds h)⟩

/-!
# Steps that succeed without a log
-/

def Silent (number : Nat) (b : Bench) : Prop :=
  b.logger.isOff = true ∧ number < b.mtimers.length

def Smooth (number : Nat) (step : BenchM Unit) : Prop :=
  Contract (Silent number) step (fun _ => Silent number) fun _ _ => False

namespace Smooth

variable {number : Nat} {driver : DriverId}

theorem bind {first : BenchM Unit} {rest : Unit → BenchM Unit} (hfirst : Smooth number first)
    (hrest : Smooth number (rest ())) : Smooth number (first >>= rest) :=
  Contract.bind hfirst fun _ => hrest

theorem logging (entry : LogRecord) : Smooth number (log entry) := by
  intro b hb
  rw [log_of_isOff hb.1]
  exact hb

theorem settingDriver (change : Mtimer.Driver → Mtimer.Driver) :
    Smooth number (setMtimerDriver driver change) :=
  Contract.modify fun _ hb => hb

theorem referring (reference : Nat) : Smooth number (setReference number reference) := by
  intro b hb
  unfold setReference
  rw [bind_of_ok (mtimer_of_some (List.getElem?_eq_getElem hb.2))]
  by_cases hself : number = reference
  · rw [if_pos hself]
    exact logging _ b hb
  · rw [if_neg hself]
    refine ⟨hb.1, ?_⟩
    change number < (b.mtimers.modify number _).length
    rw [List.length_modify]
    exact hb.2

theorem registering (device : TimerDevice) (name : String) :
    Smooth number (registerTimer device name) := by
  apply Contract.get_bind
  intro b hb
  refine Contract.bind_ok rfl ?_
  change Contract _ (if b.timer.getD device = device then _ else pure ()) _ _
  split
  · exact logging_of_isOff (by exact hb.1) (by exact hb) _
  · exact Contract.value fun s hs => by rw [hs]; exact hb

theorem announcing (config : Mtimer.Config) (reference : Option Nat) (table : HartTable Nat) :
    Smooth number (do
      setMtimerDriver driver fun d => { d with devices := table }
      if let some reference := reference then setReference number reference
      setMtimerDriver driver fun d =>
        { d with frequency := if d.frequency = 0 then config.frequency else d.frequency }
      log config.boundRecord
      registerTimer (.mtimer driver) Mtimer.Driver.name) := by
  have hend : Smooth number (do
      setMtimerDriver driver fun d =>
        { d with frequency := if d.frequency = 0 then config.frequency else d.frequency }
      log config.boundRecord
      registerTimer (.mtimer driver) Mtimer.Driver.name) :=
    (settingDriver _).bind ((logging _).bind (registering _ _))
  apply (settingDriver _).bind
  cases reference with
  | none => exact hend
  | some followed => exact (referring followed).bind hend

end Smooth

end Bench

/-!
# The calls of the drivers
-/

namespace Mtimer.Config

/-- The sum of the sizes of the two register blocks, or the position behind a piece of what is
protected, is not below `2 ^ 64`. -/
def Overflows (config : Config) (domain : Domain) : Prop :=
  UInt64.size ≤ config.timeSize.toNat + config.compareSize.toNat ∨
    domain.Breaks pieceLimit (config.offsets.flatMap config.copyRanges)

theorem overflows_iff {config : Config} {domain : Domain}
    (hsum : config.timeSize.toNat + config.compareSize.toNat < UInt64.size) :
    config.Overflows domain ↔
      domain.Breaks pieceLimit (config.offsets.flatMap config.copyRanges) :=
  or_iff_right (Nat.not_le.mpr hsum)

theorem dvd_of_mem_ranges {config : Config} (hvalid : config.isValid = true)
    {range : UInt64 × UInt64} (hmem : range ∈ config.offsets.flatMap config.copyRanges) :
    8 ∣ range.1.toNat := by
  rcases List.mem_flatMap.mp hmem with ⟨copy, hcopy, hrange⟩
  exact dvd_of_mem_copyRanges (aligned_of_isValid hvalid) hcopy hrange

end Mtimer.Config

namespace Bench

structure Admits (b : Bench) (driver : DriverId) (config : Mtimer.Config)
    (reference : Option Nat) : Prop where
  valid : config.isValid = true
  sameFrequency : SameFrequency b config reference
  vacant : (b.mtimerDrivers driver).devices.isVacant config.harts = true

end Bench

namespace Binding

open Bench

def Overflows (b : Bench) : Binding → Prop
  | mswi _ _ => False
  | mtimer driver number reference =>
      ∃ device, b.mtimers[number]? = some device ∧ b.Admits driver device.config reference ∧
        device.config.Overflows b.domain

theorem overflows_mtimer_iff {b : Bench} {driver : DriverId} {number : Nat}
    {reference : Option Nat} {device : Mtimer.Device}
    (hdevice : b.mtimers[number]? = some device) :
    (mtimer driver number reference).Overflows b ↔
      b.Admits driver device.config reference ∧ device.config.Overflows b.domain := by
  constructor
  · intro hoverflows
    rcases hoverflows with ⟨found, hfound, hoverflows⟩
    rw [hdevice] at hfound
    cases hfound
    exact hoverflows
  · exact fun hoverflows => ⟨device, hdevice, hoverflows⟩

end Binding

namespace Bench

variable {b : Bench}

theorem orRefuse_bindRange {table : HartTable Nat} {harts : HartRange}
    (hvacant : table.isVacant harts = true) (number : Nat) :
    (orRefuse (table.bindRange harts number) : BenchM (HartTable Nat)) b =
      .ok (table.assign harts number) b := by
  rw [HartTable.bindRange_eq_ok_iff.mpr ⟨hvacant, rfl⟩]
  rfl

theorem contract_bindMtimer_of_isOff (hoff : b.logger.isOff = true) (driver : DriverId)
    (number : Nat) (reference : Option Nat) :
    Contract (· = b) (bindMtimer driver number reference)
      (fun _ _ => ¬(Binding.mtimer driver number reference).Overflows b)
      (fun exit _ => Ending ((Binding.mtimer driver number reference).Overflows b) exit) := by
  cases hdevice : b.mtimers[number]? with
  | none =>
      refine Contract.bind_error (mtimer_of_none hdevice) (.refused _ fun hoverflows => ?_)
      rcases hoverflows with ⟨device, hfound, _⟩
      rw [hdevice] at hfound
      cases hfound
  | some device =>
      rw [Binding.overflows_mtimer_iff hdevice]
      apply Contract.bind_ok (mtimer_of_some hdevice)
      apply Checks.ending (checks_validate device.config.isValid) fun h => h.1.valid
      intro hvalid
      apply Checks.ending (checks_requireSameFrequency _ _) fun h => h.1.sameFrequency
      intro hsame
      apply Contract.get_bind_of_eq
      apply Checks.ending (checks_requireVacant _ _) fun h => h.1.vacant
      intro hvacant
      have hadmits : b.Admits driver device.config reference := ⟨hvalid, hsame, hvacant⟩
      rw [and_iff_right hadmits]
      unfold Mtimer.Config.ranges
      by_cases hsum : device.config.timeSize.toNat + device.config.compareSize.toNat <
        UInt64.size
      · rw [if_pos hsum, Mtimer.Config.overflows_iff hsum]
        refine Contract.bind_ok rfl ?_
        have hprotect := protecting_of_isOff hoff fun _ =>
          Mtimer.Config.dvd_of_mem_ranges hvalid
        refine Contract.bind hprotect fun _ => Contract.assuming fun hbreaks => ?_
        apply Contract.get_bind
        rintro _ ⟨grown, rfl⟩
        apply Contract.bind_ok (orRefuse_bindRange hvacant number)
        have hsilent : Silent number { b with domain := grown } :=
          ⟨hoff, (List.getElem?_eq_some_iff.mp hdevice).1⟩
        refine (Smooth.announcing device.config reference _).weaken ?_ (fun _ _ _ => hbreaks) ?_
        · rintro _ rfl
          exact hsilent
        · intro _ _ hfails
          cases hfails
      · rw [if_neg hsum]
        exact Contract.bind_error rfl (.inl ⟨rfl, .inl (Nat.not_lt.mp hsum)⟩)

theorem contract_bindMswi_of_isOff (hoff : b.logger.isOff = true) (driver : DriverId)
    (number : Nat) :
    Contract (· = b) (bindMswi driver number) (fun _ s => s.logger.isOff = true)
      (fun exit _ => Ending False exit) := by
  cases hdevice : b.mswis[number]? with
  | none => exact Contract.bind_error (mswi_of_none hdevice) (.refused _ id)
  | some config =>
      apply Contract.bind_ok (mswi_of_some hdevice)
      apply Checks.ending (checks_validate config.isValid) False.elim
      intro hvalid
      apply Contract.get_bind_of_eq
      apply Checks.ending (checks_requireVacant _ _) False.elim
      intro hvacant
      have hbreaks : ¬b.domain.Breaks Mtimer.pieceLimit config.blocks :=
        Domain.not_breaks_of_not_runsOver fun range hmem =>
          Domain.not_runsOver_of_dvd Mtimer.isLimit_pieceLimit
            (Mswi.Config.dvd_of_mem_blocks hvalid hmem).1
      have hprotect := protecting_of_isOff hoff fun range hmem =>
        Mtimer.isLimit_pieceLimit.eight_dvd.trans (Mswi.Config.dvd_of_mem_blocks hvalid hmem).1
      rw [iff_false_intro hbreaks] at hprotect
      refine Contract.bind hprotect fun _ => Contract.assuming fun _ => ?_
      apply Contract.get_bind
      rintro _ ⟨grown, rfl⟩
      apply Contract.bind_ok (orRefuse_bindRange hvacant number)
      have hset : Contract (· = { b with domain := grown })
          (setMswiDriver driver fun d =>
            { d with devices := (b.mswiDrivers driver).devices.assign config.harts number })
          (fun _ s => s.logger.isOff = true) (fun exit _ => Ending False exit) := by
        apply Contract.modify
        rintro _ rfl
        exact hoff
      exact hset.bind fun _ s hs => logging_of_isOff hs hs _ s rfl

end Bench

namespace Binding

theorem contract_run_of_isOff {m : Machine} (hoff : m.outside.logger.isOff = true)
    (binding : Binding) :
    Contract (· = m) binding.run (fun _ _ => ¬binding.Overflows m.outside)
      (fun exit _ => Ending (binding.Overflows m.outside) exit) := by
  cases binding with
  | mswi driver number =>
      have hbind := Bench.contract_within (m := m)
        (Bench.contract_bindMswi_of_isOff hoff driver number)
      refine Contract.bind (hbind.breaking fun _ _ hending => hending.2) fun _ => ?_
      have hregister : Contract (fun m' : Machine => m'.outside.logger.isOff = true)
          (Machine.registerController (.mswi driver))
          (fun _ m' => m'.outside.logger.isOff = true) (fun exit _ => Ending False exit) := by
        refine Contract.registering (fun _ hm => hm) fun entry m' hm => ?_
        rw [Ipi.onOutside_of_ok (Bench.log_of_isOff hm entry)]
        exact hm
      exact hregister.weaken (fun _ h => h) (fun _ _ _ => id) fun _ _ h => h
  | mtimer driver number reference =>
      have hbind := Bench.contract_within (m := m)
        (Bench.contract_bindMtimer_of_isOff hoff driver number reference)
      exact hbind.breaking fun _ _ hending => hending.2

/-- Without a log, a call of a driver succeeds or is refused, unless a sum overflows.
It breaks off then, and whether it does is told by the description of the device and
the regions recorded before. -/
theorem faults_iff_overflows {m : Machine} (hoff : m.outside.logger.isOff = true)
    (binding : Binding) :
    (exit? binding.run m = some (.fault .sumOverflow) ↔ binding.Overflows m.outside) ∧
      (¬binding.Overflows m.outside →
        exit? binding.run m = none ∨ ∃ error, exit? binding.run m = some (.refused error)) := by
  have hcontract := contract_run_of_isOff hoff binding
  unfold exit?
  cases hrun : binding.run m with
  | ok value after =>
      have hfits := hcontract.of_ok rfl hrun
      exact ⟨iff_of_false nofun hfits, fun _ => .inl rfl⟩
  | error exit after =>
      rcases hcontract.of_error rfl hrun with ⟨rfl, hoverflows⟩ | ⟨⟨error, rfl⟩, hfits⟩
      · exact ⟨iff_of_true rfl hoverflows, fun hfits => absurd hoverflows hfits⟩
      · exact ⟨iff_of_false nofun hfits, fun _ => .inr ⟨error, rfl⟩⟩

def loneCounterMachine (timeBase : UInt64) : Machine :=
  { outside :=
    { mtimers := [{ config := ⟨timeBase, 8, 0x2000, 16, 1000000, ⟨0, 2⟩, true, false, []⟩ }] } }

theorem faults_iff_overflows_loneCounter :
    (loneCounterMachine 0xffffffffffffeff8).outside.logger.isOff = true ∧
      exit? (mtimer 0 0 none).run (loneCounterMachine 0xffffffffffffeff8) ≠
        some (.fault .sumOverflow) := by
  have hoff : (loneCounterMachine 0xffffffffffffeff8).outside.logger.isOff = true := rfl
  refine ⟨hoff, fun hfault => ?_⟩
  rcases (faults_iff_overflows hoff (mtimer 0 0 none)).1.mp hfault with
    ⟨device, hdevice, _, hoverflows⟩
  cases hdevice
  rcases hoverflows with hsum | hbreaks
  · exact absurd hsum (by decide)
  · refine Domain.not_breaks_of_not_runsOver ?_ hbreaks
    refine List.forall_mem_cons.mpr ⟨by decide, List.forall_mem_cons.mpr ⟨by decide, ?_⟩⟩
    exact List.forall_mem_nil _

/-- A valid description, an empty driver and an empty domain do not keep a
call from breaking off. -/
theorem breaks_off_loneCounter :
    (loneCounterMachine 0xfffffffffffffff8).outside.mtimers.all (·.config.isValid) = true ∧
      (loneCounterMachine 0xfffffffffffffff8).outside.logger.isOff = true ∧
      exit? (mtimer 0 0 none).run (loneCounterMachine 0xfffffffffffffff8) =
        some (.fault .sumOverflow) := by
  refine ⟨by decide, rfl, by decide +kernel⟩

end Binding
end Interhart
