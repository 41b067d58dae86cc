import Interhart.Proofs.Machine.Alignment

/-!
# What a timer driver does when it takes a device on

A call that succeeds has bound the harts of the device, has told it what to follow, has kept
its frequency if the driver knew of none, and has made the driver the timer if there was no
other.  Reads and records aside, it has done nothing else but record regions.
-/

namespace Interhart

def Mtimer.Device.following (device : Device) (reference : Nat) : Device :=
  { device with reference := some (device.reference.getD reference) }

namespace Bench

theorem Alike.changing {b b' : Bench} (h : Alike b b') (change : Bench → Bench)
    (hblind : ∀ b bus clocks trace output,
      change { b with bus := bus, clocks := clocks, trace := trace, output := output } =
        { change b with bus := bus, clocks := clocks, trace := trace, output := output })
    (htrace : ∀ b, (change b).trace = b.trace) : Alike (change b) (change b') := by
  rcases h with ⟨bus, clocks, entries, output, hentries, rfl⟩
  refine ⟨bus, clocks, entries, output, hentries, ?_⟩
  rw [htrace]
  exact hblind b bus clocks (entries ++ b.trace) output

/-!
# Steps that succeed
-/

theorem ok_of_orRefuse {α : Type} {answer : Except Error α} {value : α} {b b' : Bench}
    (h : orRefuse answer b = .ok value b') : answer = .ok value ∧ b' = b := by
  cases answer with
  | ok found =>
      cases h
      exact ⟨rfl, rfl⟩
  | error error => cases h

theorem ok_of_orFault {α : Type} {answer : Except Fault α} {value : α} {b b' : Bench}
    (h : orFault answer b = .ok value b') : answer = .ok value ∧ b' = b := by
  cases answer with
  | ok found =>
      cases h
      exact ⟨rfl, rfl⟩
  | error fault => cases h

theorem ok_of_protect {ranges : List (UInt64 × UInt64)} {b b' : Bench}
    (h : (ranges.forM fun (base, size) => protectRange base size Mtimer.pieceLimit) b =
      .ok () b') :
    ∃ domain, Alike { b with domain := domain } b' := by
  have hprotect : Contract (Protecting b _ []) _ _ (Refusing b _) :=
    protecting_ranges (by decide : Domain.isPowerOfTwo Mtimer.pieceLimit = true)
      (List.Subset.refl (ranges.flatMap (Domain.rangeRegions Mtimer.pieceLimit)))
  rcases (hprotect.of_ok (.refl b _) h).1 with ⟨domain, _, _, halike⟩
  exact ⟨domain, halike⟩

theorem ok_of_setReference {number reference : Nat} {b b' : Bench}
    (h : setReference number reference b = .ok () b') :
    Alike { b with mtimers :=
      if number = reference then b.mtimers
      else b.mtimers.modify number (·.following reference) } b' := by
  rcases ok_of_bind_ok h with ⟨device, _, hdevice, hset⟩
  rcases ok_of_mtimer hdevice with ⟨_, rfl⟩
  by_cases hself : number = reference
  · rw [if_pos hself] at hset ⊢
    exact (Passive.logging _ _).of_ok (.refl _) hset
  · rw [if_neg hself] at hset ⊢
    cases hset
    exact .refl _

theorem ok_of_registerTimer {device : TimerDevice} {name : String} {b b' : Bench}
    (h : registerTimer device name b = .ok () b') :
    Alike { b with timer := some (b.timer.getD device) } b' := by
  unfold registerTimer at h
  rw [Interhart.get_bind] at h
  rcases ok_of_bind_ok h with ⟨_, _, hset, hlog⟩
  cases hset
  split at hlog
  · exact (Passive.logging _ _).of_ok (.refl _) hlog
  · cases hlog
    exact .refl _

/-!
# What the call leaves

Reads and records aside, a call that succeeds changes a bench in four steps.
-/

def assigning (b : Bench) (driver : DriverId) (table : HartTable Nat) : Bench :=
  { b with mtimerDrivers := fun d =>
      if d = driver then { b.mtimerDrivers d with devices := table } else b.mtimerDrivers d }

def following (b : Bench) (number : Nat) (reference : Option Nat) : Bench :=
  match reference with
  | some followed =>
      { b with mtimers :=
          if number = followed then b.mtimers
          else b.mtimers.modify number (·.following followed) }
  | none => b

def announcing (b : Bench) (driver : DriverId) (frequency : UInt64) : Bench :=
  { b with
    mtimerDrivers := fun d =>
      if d = driver then { b.mtimerDrivers d with
        frequency :=
          if (b.mtimerDrivers d).frequency = 0 then frequency
          else (b.mtimerDrivers d).frequency }
      else b.mtimerDrivers d
    timer := some (b.timer.getD (.mtimer driver)) }

/-- The bench once regions have been recorded and a driver has taken a device on. -/
def enrolling (b : Bench) (driver : DriverId) (number : Nat) (reference : Option Nat)
    (config : Mtimer.Config) (domain : Domain) : Bench :=
  ((assigning { b with domain := domain } driver
    ((b.mtimerDrivers driver).devices.assign config.harts number)).following number
      reference).announcing driver config.frequency

section Enrolling

variable (b : Bench) (driver : DriverId) (number : Nat) (reference : Option Nat)
  (config : Mtimer.Config) (domain : Domain)

@[simp] theorem mtimerDrivers_following :
    (b.following number reference).mtimerDrivers = b.mtimerDrivers := by
  cases reference with
  | none => rfl
  | some followed => rfl

@[simp] theorem timer_following : (b.following number reference).timer = b.timer := by
  cases reference with
  | none => rfl
  | some followed => rfl

theorem getElem?_following_of_ne {place : Nat} (h : place ≠ number) :
    (b.following number reference).mtimers[place]? = b.mtimers[place]? := by
  cases reference with
  | none => rfl
  | some followed =>
      change (if number = followed then b.mtimers else _)[place]? = _
      split
      · rfl
      · exact List.getElem?_modify_ne _ _ h.symm

@[simp] theorem mtimerDrivers_enrolling_self :
    (b.enrolling driver number reference config domain).mtimerDrivers driver =
      { devices := (b.mtimerDrivers driver).devices.assign config.harts number
        frequency :=
          if (b.mtimerDrivers driver).frequency = 0 then config.frequency
          else (b.mtimerDrivers driver).frequency } := by
  simp [enrolling, announcing, assigning]

@[simp] theorem timer_enrolling :
    (b.enrolling driver number reference config domain).timer =
      some (b.timer.getD (.mtimer driver)) := by
  simp [enrolling, announcing, assigning]

@[simp] theorem mtimers_enrolling :
    (b.enrolling driver number reference config domain).mtimers =
      (b.following number reference).mtimers := by
  cases reference with
  | none => rfl
  | some followed => rfl

theorem enrolling_surroundings :
    let after := b.enrolling driver number reference config domain
    after.script = b.script ∧ after.logger = b.logger ∧ after.trace = b.trace := by
  cases reference with
  | none => exact ⟨rfl, rfl, rfl⟩
  | some followed => exact ⟨rfl, rfl, rfl⟩

end Enrolling

/-!
# The call that succeeds
-/

namespace Alike

variable {b b' : Bench} (h : Alike b b')

include h

theorem assigning (driver : DriverId) (table : HartTable Nat) :
    Alike (b.assigning driver table) (b'.assigning driver table) :=
  h.changing (·.assigning driver table) (fun _ _ _ _ _ => rfl) fun _ => rfl

theorem following (number : Nat) (reference : Option Nat) :
    Alike (b.following number reference) (b'.following number reference) := by
  apply h.changing (·.following number reference)
  · cases reference with
    | none => exact fun _ _ _ _ _ => rfl
    | some followed => exact fun _ _ _ _ _ => rfl
  · cases reference with
    | none => exact fun _ => rfl
    | some followed => exact fun _ => rfl

theorem announcing (driver : DriverId) (frequency : UInt64) :
    Alike (b.announcing driver frequency) (b'.announcing driver frequency) :=
  h.changing (·.announcing driver frequency) (fun _ _ _ _ _ => rfl) fun _ => rfl

end Alike

theorem ok_of_announce {driver : DriverId} {config : Mtimer.Config} {name : String}
    {b b' : Bench} (h : (do
      setMtimerDriver driver fun d =>
        { d with frequency := if d.frequency = 0 then config.frequency else d.frequency }
      log config.boundRecord
      registerTimer (.mtimer driver) name) b = .ok () b') :
    Alike (b.announcing driver config.frequency) b' := by
  rcases ok_of_bind_ok h with ⟨_, _, hset, hrest⟩
  cases hset
  rcases ok_of_bind_ok hrest with ⟨_, logged, hlog, hregister⟩
  have hlogged : Alike _ logged := (Passive.logging _ _).of_ok (.refl _) hlog
  have htimer := hlogged.changing
    (fun b => { b with timer := some (b.timer.getD (.mtimer driver)) })
    (fun _ _ _ _ _ => rfl) fun _ => rfl
  exact htimer.trans (ok_of_registerTimer hregister)

theorem ok_of_enroll {driver : DriverId} {number : Nat} {reference : Option Nat}
    {config : Mtimer.Config} {b b' : Bench} {table : HartTable Nat}
    (h : (do
      setMtimerDriver driver fun d => { d with devices := table }
      if let some reference := reference then setReference number reference
      setMtimerDriver driver fun d =>
        { d with frequency := if d.frequency = 0 then config.frequency else d.frequency }
      log config.boundRecord
      registerTimer (.mtimer driver) Mtimer.Driver.name) b = .ok () b') :
    Alike (((b.assigning driver table).following number reference).announcing driver
      config.frequency) b' := by
  rcases ok_of_bind_ok h with ⟨_, _, hset, hrest⟩
  cases hset
  cases reference with
  | none => exact ok_of_announce hrest
  | some followed =>
      rcases ok_of_bind_ok hrest with ⟨_, _, hfollow, hannounce⟩
      have hfollowed := (ok_of_setReference hfollow).announcing driver config.frequency
      exact hfollowed.trans (ok_of_announce hannounce)

/-- What a driver has found when it takes a device on, and what it leaves. -/
structure Enrolled (driver : DriverId) (number : Nat) (reference : Option Nat)
    (device : Mtimer.Device) (b b' : Bench) : Prop where
  found : b.mtimers[number]? = some device
  valid : device.config.isValid = true
  sameFrequency : ∀ followed, reference = some followed →
    ∃ leader, b.mtimers[followed]? = some leader ∧
      leader.config.frequency = device.config.frequency
  vacant : (b.mtimerDrivers driver).devices.isVacant device.config.harts = true
  left : ∃ domain, Alike (b.enrolling driver number reference device.config domain) b'

theorem ok_of_bindMtimer {driver : DriverId} {number : Nat} {reference : Option Nat}
    {b b' : Bench} (h : bindMtimer driver number reference b = .ok () b') :
    ∃ device, Enrolled driver number reference device b b' := by
  -- Step by step; each last hypothesis holds the rest of the run, named for its next step.
  rcases ok_of_bind_ok h with ⟨device, _, hdevice, hvalidating⟩
  rcases ok_of_mtimer hdevice with ⟨hfound, rfl⟩
  rcases ok_of_bind_ok hvalidating with ⟨_, _, hvalidate, hcomparing⟩
  rcases (checks_validate device.config.isValid).ok hvalidate with ⟨rfl, hvalid⟩
  rcases ok_of_bind_ok hcomparing with ⟨_, _, hcompare, hrequiring⟩
  rcases (checks_requireSameFrequency _ _).ok hcompare with ⟨rfl, hfrequency⟩
  rw [Interhart.get_bind] at hrequiring
  rcases ok_of_bind_ok hrequiring with ⟨_, _, hrequire, hsumming⟩
  rcases (checks_requireVacant _ _).ok hrequire with ⟨rfl, hvacant⟩
  rcases ok_of_bind_ok hsumming with ⟨ranges, start, hsum, hprotecting⟩
  rcases ok_of_orFault hsum with ⟨_, rfl⟩
  rcases ok_of_bind_ok hprotecting with ⟨_, _, hprotect, hbinding⟩
  rcases ok_of_protect hprotect with ⟨domain, halike⟩
  rw [Interhart.get_bind] at hbinding
  rcases ok_of_bind_ok hbinding with ⟨table, _, hbind, henrolling⟩
  rcases ok_of_orRefuse hbind with ⟨hassign, rfl⟩
  have htable : table =
      (start.mtimerDrivers driver).devices.assign device.config.harts number := by
    rcases halike with ⟨_, _, _, _, _, rfl⟩
    exact (HartTable.bindRange_eq_ok_iff.mp hassign).2
  have hdone := ((halike.assigning driver table).following number reference).announcing driver
    device.config.frequency
  refine ⟨device, hfound, hvalid, hfrequency, hvacant, domain, ?_⟩
  rw [enrolling, ← htable]
  exact hdone.trans (ok_of_enroll henrolling)

end Bench
end Interhart
