import Interhart.Machine.Command
import Interhart.Proofs.Machine.Accesses

/-!
# How a timer device is aligned

A device that has a counter of its own and a reference is due to be aligned until this has been
begun.  A device that is not due is left alone without a single access.  So of all the calls on
a device, in whatever order, one at most moves its counter, and the device keeps the difference
by which it has been moved.
-/

namespace Interhart

namespace Mtimer

/-- Whether the next alignment of a device is the one that counts. -/
def Device.IsDue (device : Device) : Prop :=
  device.reference ≠ none ∧ device.config.sharesTime = false ∧ device.aligned = false

/-- The samples that a device is aligned by, in the order they are taken: the third one and the
last one are of its own counter again. -/
structure Samples where
  before : UInt64
  there : UInt64
  after : UInt64
  last : UInt64
deriving DecidableEq

namespace Samples

def delta (samples : Samples) : UInt64 :=
  Config.difference samples.before samples.there samples.after

def written (samples : Samples) : UInt64 := samples.last + samples.delta

end Samples

namespace Config

section Anywhere

variable {σ : Type} [ReadsRegisters (EStateM Exit σ)] [WritesRegisters (EStateM Exit σ)]

/-- Samples have been taken, and the counter of a device has been set accordingly.  What else
goes on when a register is accessed is left open. -/
def AlignedBy (config reference : Config) (hart : Nat) (samples : Samples) (start finish : σ) :
    Prop :=
  ∃ s₁ s₂ s₃ s₄,
    (config.time hart : EStateM Exit σ UInt64) start = .ok samples.before s₁ ∧
      (reference.time hart : EStateM Exit σ UInt64) s₁ = .ok samples.there s₂ ∧
      (config.time hart : EStateM Exit σ UInt64) s₂ = .ok samples.after s₃ ∧
      (config.time hart : EStateM Exit σ UInt64) s₃ = .ok samples.last s₄ ∧
      (config.setTime hart samples.written : EStateM Exit σ Unit) s₄ = .ok () finish

theorem alignedBy_of_align {config reference : Config} {hart : Nat} {start finish : σ}
    {delta : UInt64}
    (h : (config.align reference hart : EStateM Exit σ UInt64) start = .ok delta finish) :
    ∃ samples, config.AlignedBy reference hart samples start finish ∧
      samples.delta = delta := by
  rcases ok_of_bind_ok h with ⟨before, s₁, hbefore, h⟩
  rcases ok_of_bind_ok h with ⟨there, s₂, hthere, h⟩
  rcases ok_of_bind_ok h with ⟨after, s₃, hafter, h⟩
  rcases ok_of_bind_ok h with ⟨last, s₄, hlast, h⟩
  rcases ok_of_bind_ok h with ⟨_, s₅, hset, h⟩
  cases h
  exact ⟨⟨before, there, after, last⟩, ⟨s₁, s₂, s₃, s₄, hbefore, hthere, hafter, hlast,
    hset⟩, rfl⟩

end Anywhere

def Shows (config : Config) (hart : Nat) (b : Bench) (value : UInt64) (b' : Bench) : Prop :=
  (config.time hart : BenchM UInt64) b = .ok value b'

/-- The readings that a device is aligned by: the difference comes from the first three, and
the last one is moved by it. -/
def Sampled (config reference : Config) (hart : Nat) (b : Bench) (delta last : UInt64)
    (sampled : Bench) : Prop :=
  ∃ before there after b₁ b₂ b₃,
    config.Shows hart b before b₁ ∧ reference.Shows hart b₁ there b₂ ∧
      config.Shows hart b₂ after b₃ ∧ config.Shows hart b₃ last sampled ∧
      delta = difference before there after

variable {config reference : Config} {hart : Nat}

theorem Shows.alike {b b' : Bench} {value : UInt64} (h : config.Shows hart b value b') :
    Bench.Alike b b' :=
  (Bench.Passive.accessing config.access (config.timeRegister hart) b).of_ok (.refl b) h

theorem Sampled.alike {b sampled : Bench} {delta last : UInt64}
    (h : config.Sampled reference hart b delta last sampled) : Bench.Alike b sampled := by
  rcases h with ⟨_, _, _, _, _, _, hbefore, hthere, hafter, hlast, _⟩
  exact ((hbefore.alike.trans hthere.alike).trans hafter.alike).trans hlast.alike

theorem ok_of_time {config : Config} {hart : Nat} {m m' : Machine} {value : UInt64}
    (h : (config.time hart : MachineM UInt64) m = .ok value m') :
    ∃ b', config.Shows hart m.outside value b' ∧ m' = m.within b' := by
  rw [time_eq] at h
  exact Ipi.ok_of_onOutside h

theorem ok_of_align {config reference : Config} {hart : Nat} {m m' : Machine} {delta : UInt64}
    (h : (config.align reference hart : MachineM UInt64) m = .ok delta m') :
    ∃ last sampled, config.Sampled reference hart m.outside delta last sampled ∧
      (config.setTime hart (last + delta) : MachineM Unit) (m.within sampled) = .ok () m' := by
  rcases alignedBy_of_align h with
    ⟨samples, ⟨m₁, m₂, m₃, m₄, hbefore, hthere, hafter, hlast, hset⟩, rfl⟩
  rcases ok_of_time hbefore with ⟨b₁, hb₁, rfl⟩
  rcases ok_of_time hthere with ⟨b₂, hb₂, rfl⟩
  rcases ok_of_time hafter with ⟨b₃, hb₃, rfl⟩
  rcases ok_of_time hlast with ⟨sampled, hsampled, rfl⟩
  exact ⟨samples.last, sampled,
    ⟨_, _, _, b₁, b₂, b₃, hb₁, hb₂, hb₃, hsampled, rfl⟩, hset⟩

end Config

end Mtimer

namespace Bench

theorem ok_of_mtimer {number : Nat} {device : Mtimer.Device} {b b' : Bench}
    (h : mtimer number b = .ok device b') : b.mtimers[number]? = some device ∧ b' = b := by
  cases hfound : b.mtimers[number]? with
  | none =>
      rw [mtimer_of_none hfound] at h
      cases h
  | some found =>
      rw [mtimer_of_some hfound] at h
      cases h
      exact ⟨rfl, rfl⟩

def beginning (b : Bench) (number : Nat) : Bench :=
  { b with mtimers := b.mtimers.modify number fun d => { d with aligned := true } }

def adjusting (b : Bench) (number : Nat) (delta : UInt64) : Bench :=
  { b with
    mtimers := b.mtimers.modify number fun d => { d with delta := some (d.delta.getD delta) } }

end Bench

namespace Machine

open Bench

variable {m after : Machine} {number hart : Nat} {device : Mtimer.Device}

theorem sync_of_idle (hdevice : m.outside.mtimers[number]? = some device) (h : ¬device.IsDue) :
    sync number hart m = .ok false m := by
  unfold sync
  rw [bind_of_ok (Ipi.onOutside_of_ok (mtimer_of_some hdevice))]
  cases hreference : device.reference with
  | none => rfl
  | some reference =>
      dsimp only
      rw [if_pos]
      · rfl
      · by_contra hopen
        rw [Bool.or_eq_true, not_or, Bool.not_eq_true, Bool.not_eq_true] at hopen
        exact h ⟨by rw [hreference]; exact Option.some_ne_none _, hopen.1, hopen.2⟩

/-- A device that is due follows its reference from now on, whether or not it gets that far. -/
theorem sync_of_due (hdevice : m.outside.mtimers[number]? = some device) (hdue : device.IsDue)
    {reference : Nat} (hreference : device.reference = some reference) :
    sync number hart m = (do
      let followed ← Ipi.onOutside (mtimer reference)
      let delta ← device.config.align followed.config hart
      Ipi.onOutside do
        setMtimer number fun d => { d with delta := some (d.delta.getD delta) }
        log (device.config.alignedRecord delta)
      return true : MachineM Bool) (m.within (m.outside.beginning number)) := by
  rcases hdue with ⟨_, hown, hopen⟩
  unfold sync
  rw [bind_of_ok (Ipi.onOutside_of_ok (mtimer_of_some hdevice)), hreference]
  simp only [hown, hopen, Bool.or_self, Bool.false_eq_true, ↓reduceIte]
  rfl

theorem ok_of_sync (hdevice : m.outside.mtimers[number]? = some device) (hdue : device.IsDue)
    {answer : Bool} (h : sync number hart m = .ok answer after) :
    answer = true ∧ ∃ reference followed delta last sampled written outside,
      device.reference = some reference ∧
      (m.outside.beginning number).mtimers[reference]? = some followed ∧
      device.config.Sampled followed.config hart (m.outside.beginning number) delta last
        sampled ∧
      (device.config.setTime hart (last + delta) : MachineM Unit) (m.within sampled) =
        .ok () written ∧
      log (device.config.alignedRecord delta) (written.outside.adjusting number delta) =
        .ok () outside ∧
      after = written.within outside := by
  rcases Option.ne_none_iff_exists'.mp hdue.1 with ⟨reference, hreference⟩
  rw [sync_of_due hdevice hdue hreference] at h
  rcases ok_of_bind_ok h with ⟨followed, m₂, hfollowed, h⟩
  rcases Ipi.ok_of_onOutside hfollowed with ⟨b₂, hb₂, rfl⟩
  rcases ok_of_mtimer hb₂ with ⟨hfound, rfl⟩
  rcases ok_of_bind_ok h with ⟨delta, written, halign, h⟩
  rcases Mtimer.Config.ok_of_align halign with ⟨last, sampled, hsampled, hset⟩
  rcases ok_of_bind_ok h with ⟨_, m₄, hfinish, h⟩
  rcases Ipi.ok_of_onOutside hfinish with ⟨outside, houtside, rfl⟩
  cases h
  rcases ok_of_bind_ok houtside with ⟨_, b₃, hadjust, hlog⟩
  cases hadjust
  exact ⟨rfl, reference, followed, delta, last, sampled, written, outside, hreference, hfound,
    hsampled, hset, hlog, rfl⟩

theorem ok_of_driverBringUpTimer {driver : DriverId}
    (hbound : (m.outside.mtimerDrivers driver).devices.get? hart = some number)
    (h : driverBringUpTimer driver hart m = .ok () after) :
    ∃ answer between device, sync number hart m = .ok answer between ∧
      between.outside.mtimers[number]? = some device ∧
      (device.config.disarm hart : MachineM Unit) between = .ok () after := by
  unfold driverBringUpTimer at h
  rw [bind_of_ok (Ipi.onOutside_of_ok (mtimerServing_apply driver hart m.outside)), hbound] at h
  rcases ok_of_bind_ok h with ⟨_, between, hdiscard, h⟩
  rcases ok_of_bind_ok hdiscard with ⟨answer, between', hsync, hpure⟩
  cases hpure
  rcases ok_of_bind_ok h with ⟨device, m', hfound, h⟩
  rcases Ipi.ok_of_onOutside hfound with ⟨b, hb, rfl⟩
  rcases ok_of_mtimer hb with ⟨hdevice, rfl⟩
  exact ⟨answer, between, device, hsync, hdevice, h⟩

end Machine

/-!
# What a device knows of its alignment
-/

def Machine.delta? (m : Machine) (number : Nat) : Option UInt64 :=
  m.outside.mtimers[number]?.bind (·.delta)

theorem exists_getElem?_modify (number : Nat) (change : Mtimer.Device → Mtimer.Device)
    (hchange : ∀ d, (change d).config = d.config) {devices : List Mtimer.Device} {place : Nat}
    {device : Mtimer.Device} (h : devices[place]? = some device) :
    ∃ changed, (devices.modify number change)[place]? = some changed ∧
      changed.config = device.config := by
  rw [List.getElem?_modify, h]
  refine ⟨if number = place then change device else device, rfl, ?_⟩
  split
  · exact hchange device
  · rfl

theorem Bench.config_eq_of_beginning {b : Bench} {number place : Nat}
    {device found : Mtimer.Device} (h : b.mtimers[place]? = some device)
    (hfound : (b.beginning number).mtimers[place]? = some found) :
    found.config = device.config := by
  rcases exists_getElem?_modify number (fun d => { d with aligned := true })
    (fun _ => rfl) h with
    ⟨changed, hchanged, hconfig⟩
  rw [Option.some.inj (hfound.symm.trans hchanged), hconfig]

theorem Bench.lasting_mtimers (devices : List Mtimer.Device) :
    Bench.Lasting fun b => b.mtimers = devices :=
  fun _ _ _ _ _ _ _ h => h

structure Bench.Tended (number : Nat) (config : Mtimer.Config) (delta : Option UInt64)
    (device : Mtimer.Device) (b : Bench) : Prop where
  found : b.mtimers[number]? = some device
  config : device.config = config
  aligned : device.aligned = delta.isSome
  delta : device.delta = delta
  followed : ∀ reference, device.reference = some reference →
    ∃ followed, b.mtimers[reference]? = some followed ∧ followed.config.isValid = true

namespace Bench.Tended

variable {number hart : Nat} {config : Mtimer.Config} {delta : Option UInt64}
  {device : Mtimer.Device} {m after : Machine}

theorem lasting (number : Nat) (config : Mtimer.Config) (delta : Option UInt64)
    (device : Mtimer.Device) : Lasting (Tended number config delta device) :=
  fun _ _ _ _ _ _ _ h => ⟨h.found, h.config, h.aligned, h.delta, h.followed⟩

theorem delta?_eq (h : Tended number config delta device m.outside) :
    m.delta? number = delta := by
  rw [Machine.delta?, h.found]
  exact h.delta

theorem isDue_iff (h : Tended number config delta device m.outside) :
    device.IsDue ↔
      delta = none ∧ device.reference ≠ none ∧ device.config.sharesTime = false := by
  unfold Mtimer.Device.IsDue
  rw [h.aligned, Option.isSome_eq_false_iff, Option.isNone_iff_eq_none]
  tauto

theorem arming (h : Tended number config delta device m.outside)
    (hvalid : config.isValid = true) {deadline : UInt64}
    (hrun : (config.arm hart deadline : MachineM Unit) m = .ok () after) :
    Tended number config delta device after.outside ∧
      (config.Untrapped m.outside →
        after.outside.trace = (config.armWrites hart deadline).reverse ++ m.outside.trace) := by
  constructor
  · have hkeeps : Keeps (fun m : Machine => Tended number config delta device m.outside)
        (config.arm hart deadline) := by
      unfold Mtimer.Config.arm
      cases config.compareRegister? hart with
      | none => exact .value ()
      | some address => exact (lasting number config delta device).accessing _ _ _ _
    exact hkeeps.of_ok h hrun
  · intro huntrapped
    rw [Mtimer.Config.arm_of_untrapped hvalid (huntrapped hart).2] at hrun
    cases hrun
    exact config.trace_armed hart deadline m.outside

theorem syncing (h : Tended number config delta device m.outside)
    (hvalid : config.isValid = true) (hdue : device.IsDue) {answer : Bool}
    (hrun : Machine.sync number hart m = .ok answer after) :
    answer = true ∧ ∃ reference followed moved last sampled,
      device.reference = some reference ∧ m.outside.mtimers[reference]? = some followed ∧
        config.Sampled followed.config hart (m.outside.beginning number) moved last sampled ∧
        (∃ device', Tended number config (some moved) device' after.outside) ∧
        (config.Untrapped m.outside → config.Untrapped after.outside ∧
          after.outside.trace.filter Entry.isWrite =
            (config.access.writes Mtimer.parkedTime (config.timeRegister hart)
              (last + moved)).reverse ++ m.outside.trace.filter Entry.isWrite) := by
  rcases Machine.ok_of_sync h.found hdue hrun with ⟨hanswer, reference, followed, moved, last,
    sampled, written, outside, hreference, hfollowed, hsampled, hset, hlog, rfl⟩
  rw [h.config] at hsampled hset
  rcases h.followed reference hreference with ⟨present, hpresent, hpresentValid⟩
  rw [config_eq_of_beginning hpresent hfollowed] at hsampled
  have hlogged : Alike (written.outside.adjusting number moved) outside :=
    (Passive.logging _ _).of_ok (.refl _) hlog
  refine ⟨hanswer, reference, present, moved, last, sampled, hreference, hpresent,
    hsampled, ?_, ?_⟩
  · have hwritten : written.outside.mtimers = (m.outside.beginning number).mtimers :=
      ((lasting_mtimers _).accessing _ _ _ _).of_ok
        ((lasting_mtimers _).alike hsampled.alike rfl) hset
    have hafter : outside.mtimers = (m.outside.mtimers.modify number fun d =>
        { d with aligned := true }).modify number fun d =>
          { d with delta := some (d.delta.getD moved) } := by
      refine (lasting_mtimers _).alike hlogged ?_
      rw [← show _ = m.outside.mtimers.modify number _ from hwritten]
      rfl
    have hnone : device.delta = none := h.delta.trans (h.isDue_iff.mp hdue).1
    refine ⟨{ device with aligned := true, delta := some moved }, ?_, h.config, rfl, rfl, ?_⟩
    · rw [Ipi.System.outside_within, hafter, List.getElem?_modify_eq, List.getElem?_modify_eq,
        h.found]
      simp [hnone]
    · intro other hother
      rcases h.followed other hother with ⟨candidate, hcandidate, hcandidateValid⟩
      rcases exists_getElem?_modify number (fun d => { d with aligned := true }) (fun _ => rfl)
        hcandidate with ⟨early, hearly, hearlyConfig⟩
      rcases exists_getElem?_modify number
        (fun d => { d with delta := some (d.delta.getD moved) }) (fun _ => rfl) hearly with
        ⟨late, hlate, hlateConfig⟩
      refine ⟨late, ?_, by rw [hlateConfig, hearlyConfig, hcandidateValid]⟩
      rw [Ipi.System.outside_within, hafter]
      exact hlate
  · intro huntrapped
    have hsafe := config.lasting_untrapped.alike hsampled.alike huntrapped
    rw [Mtimer.Config.setTime_of_untrapped hvalid (hsafe hart).1] at hset
    cases hset
    refine ⟨config.lasting_untrapped.alike hlogged hsafe, ?_⟩
    rw [Ipi.System.outside_within, hlogged.filter_trace]
    change ((config.access.writes Mtimer.parkedTime (config.timeRegister hart)
      (last + moved)).reverse ++ sampled.trace).filter Entry.isWrite = _
    rw [List.filter_append, List.filter_reverse, RegisterAccess.filter_writes,
      hsampled.alike.filter_trace]
    rfl

theorem following (h : Tended number config delta device m.outside) {reference : Nat}
    (hcandidate : ∃ followed, m.outside.mtimers[reference]? = some followed ∧
      followed.config.isValid = true)
    (hrun : (Ipi.onOutside (setReference number reference) : MachineM Unit) m = .ok () after) :
    (∃ device', Tended number config delta device' after.outside) ∧
      after.outside.trace.filter Entry.isWrite = m.outside.trace.filter Entry.isWrite := by
  rcases Ipi.ok_of_onOutside hrun with ⟨outside, houtside, rfl⟩
  unfold setReference at houtside
  rw [bind_of_ok (mtimer_of_some h.found)] at houtside
  by_cases hself : number = reference
  · rw [if_pos hself] at houtside
    have halike : Alike m.outside outside := (Passive.logging _ _).of_ok (.refl _) houtside
    exact ⟨⟨device, (lasting _ _ _ _).alike halike h⟩, halike.filter_trace⟩
  · rw [if_neg hself] at houtside
    cases houtside
    refine ⟨⟨{ device with reference := some (device.reference.getD reference) }, ?_, h.config,
      h.aligned, h.delta, ?_⟩, rfl⟩
    · rw [Ipi.System.outside_within, List.getElem?_modify_eq, h.found]
      rfl
    · intro other hother
      have hvalid : ∃ followed, m.outside.mtimers[other]? = some followed ∧
          followed.config.isValid = true := by
        cases hreference : device.reference with
        | none =>
            rw [hreference] at hother
            cases hother
            exact hcandidate
        | some present =>
            rw [hreference] at hother
            cases hother
            exact h.followed _ hreference
      rcases hvalid with ⟨followed, hfollowed, hfollowedValid⟩
      rcases exists_getElem?_modify number
        (fun d => { d with reference := some (d.reference.getD reference) }) (fun _ => rfl)
        hfollowed with ⟨changed, hchanged, hconfig⟩
      exact ⟨changed, hchanged, by rw [hconfig, hfollowedValid]⟩

end Bench.Tended

end Interhart
