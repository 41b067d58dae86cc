import Interhart.Machine.Bench
import Interhart.Proofs.Contract

/-!
# What logging changes

A record that is kept leaves an entry in the trace, or a line on the console.  A line shows
the time, and the timer is read for it: the bus and the clocks advance, and the reads stand
in the trace.  Nothing else on the bench changes, whether or not the record gets written.
-/

namespace Interhart

def Entry.IsPassive : Entry → Prop
  | .read32 _ _ | .read64 _ _ | .logged _ => True
  | _ => False

namespace Bench

/-- A bench after reads and records. -/
def Alike (b b' : Bench) : Prop :=
  ∃ bus clocks entries output,
    (∀ entry ∈ entries, entry.IsPassive) ∧
      b' = { b with
        bus := bus, clocks := clocks, trace := entries ++ b.trace, output := output }

namespace Alike

theorem refl (b : Bench) : Alike b b :=
  ⟨b.bus, b.clocks, [], b.output, by simp, rfl⟩

theorem trans {a b c : Bench} (h : Alike a b) (h' : Alike b c) : Alike a c := by
  rcases h with ⟨_, _, entries, _, hentries, rfl⟩
  rcases h' with ⟨bus, clocks, entries', output, hentries', rfl⟩
  refine ⟨bus, clocks, entries' ++ entries, output, ?_, ?_⟩
  · intro entry hmem
    rcases List.mem_append.mp hmem with hlate | hearly
    · exact hentries' entry hlate
    · exact hentries entry hearly
  · rw [List.append_assoc]

end Alike

/-- The timer drivers bind harts to devices that are there. -/
def Linked (b : Bench) : Prop :=
  ∀ driver hart number,
    (b.mtimerDrivers driver).devices.get? hart = some number → number < b.mtimers.length

/-- A step that reads and logs.  Where the timer drivers are in order it is never refused. -/
def Passive {α : Type} (step : BenchM α) : Prop :=
  ∀ start, Contract (Alike start) step (fun _ => Alike start)
    fun exit b => Alike start b ∧ (Linked start → ∀ error, exit ≠ .refused error)

namespace Passive

variable {α β : Type}

theorem value (value : α) : Passive (pure value) := fun _ => Contract.value fun _ h => h

theorem state : Passive get := fun _ _ h => h

theorem exit {exit : Exit} (h : ∀ error, exit ≠ .refused error) :
    Passive (throw exit : BenchM α) :=
  fun _ => Contract.exit fun _ halike => ⟨halike, fun _ => h⟩

theorem bind {first : BenchM α} {rest : α → BenchM β} (hfirst : Passive first)
    (hrest : ∀ value, Passive (rest value)) : Passive (first >>= rest) :=
  fun start => Contract.bind (hfirst start) fun value => hrest value start

theorem modifying {change : Bench → Bench} (h : ∀ b, Alike b (change b)) :
    Passive (modify change) :=
  fun _ => Contract.modify fun b halike => halike.trans (h b)

theorem recording {entry : Entry} (h : entry.IsPassive) : Passive (record entry) :=
  modifying fun b => ⟨b.bus, b.clocks, [entry], b.output, by simpa using h, rfl⟩

end Passive

/-!
# Devices by number
-/

theorem mswi_of_some {b : Bench} {number : Nat} {config : Mswi.Config}
    (h : b.mswis[number]? = some config) : mswi number b = .ok config b := by
  unfold mswi
  rw [Interhart.get_bind, h]
  rfl

theorem mswi_of_none {b : Bench} {number : Nat} (h : b.mswis[number]? = none) :
    mswi number b = .error (.refused .noDevice) b := by
  unfold mswi
  rw [Interhart.get_bind, h]
  rfl

theorem mtimer_of_some {b : Bench} {number : Nat} {device : Mtimer.Device}
    (h : b.mtimers[number]? = some device) : mtimer number b = .ok device b := by
  unfold mtimer
  rw [Interhart.get_bind, h]
  rfl

theorem mtimer_of_none {b : Bench} {number : Nat} (h : b.mtimers[number]? = none) :
    mtimer number b = .error (.refused .noDevice) b := by
  unfold mtimer
  rw [Interhart.get_bind, h]
  rfl

theorem keeps_mswi {invariant : Bench → Prop} (number : Nat) :
    Keeps invariant (mswi number) := by
  apply Keeps.looking
  intro b _
  cases b.mswis[number]? with
  | none => exact .exit _
  | some config => exact .value config

theorem keeps_mtimer {invariant : Bench → Prop} (number : Nat) :
    Keeps invariant (mtimer number) := by
  apply Keeps.looking
  intro b _
  cases b.mtimers[number]? with
  | none => exact .exit _
  | some device => exact .value device

theorem mswiServing_apply (driver : DriverId) (hart : Nat) (b : Bench) :
    mswiServing driver hart b = .ok ((b.mswiDrivers driver).devices.get? hart) b := rfl

theorem mtimerServing_apply (driver : DriverId) (hart : Nat) (b : Bench) :
    mtimerServing driver hart b = .ok ((b.mtimerDrivers driver).devices.get? hart) b := rfl

namespace Passive

/-!
# Reads
-/

theorem polling {attempt : BenchM (Option α)} (h : Passive attempt) (bound : Nat) :
    Passive (poll attempt bound) := by
  induction bound with
  | zero => exact exit fun _ => nofun
  | succ bound ih =>
      rw [poll_succ]
      apply bind h
      intro result
      cases result with
      | none => exact ih
      | some found => exact value found

theorem ticking (address : UInt64) :
    Passive (modify fun b => { b with bus := b.bus.tick address }) :=
  modifying fun b => ⟨b.bus.tick address, b.clocks, [], b.output, by simp, rfl⟩

theorem loading32 (address : UInt64) : Passive (load32 address : BenchM UInt32) := by
  unfold load32
  split
  · apply bind state
    intro b
    apply bind (ticking address)
    intro _
    exact bind (recording trivial) fun _ => value _
  · exact exit fun _ => nofun

theorem loading64 (address : UInt64) : Passive (load64 address : BenchM UInt64) := by
  unfold load64
  split
  · apply bind state
    intro b
    apply bind (ticking address)
    intro _
    exact bind (recording trivial) fun _ => value _
  · exact exit fun _ => nofun

theorem accessing (access : RegisterAccess) (address : UInt64) :
    Passive (access.read address : BenchM UInt64) := by
  cases access with
  | whole => exact loading64 address
  | halves =>
      apply polling
      apply bind (loading32 _)
      intro high
      apply bind (loading32 _)
      intro low
      exact bind (loading32 _) fun again => value _

theorem readingClock (number : Nat) : Passive (readClock number) := by
  apply bind state
  intro b
  refine bind (modifying fun b => ?_) fun _ => value _
  exact ⟨b.bus, _, [], b.output, by simp, rfl⟩

/-- Here alone a refusal could come from: the device that serves the hart has to be there. -/
theorem readingDriver (driver : DriverId) (hart : Nat) : Passive (driverTime driver hart) := by
  intro start b halike
  unfold driverTime
  rw [bind_of_ok (mtimerServing_apply driver hart b)]
  cases hserving : (b.mtimerDrivers driver).devices.get? hart with
  | none => exact halike
  | some number =>
      dsimp only
      cases hdevice : b.mtimers[number]? with
      | some device =>
          rw [bind_of_ok (mtimer_of_some hdevice)]
          exact accessing device.config.access _ start b halike
      | none =>
          rw [bind_of_error (mtimer_of_none hdevice)]
          refine ⟨halike, fun hlinked => ?_⟩
          rcases halike with ⟨_, _, _, _, _, rfl⟩
          exact absurd (hlinked driver hart number hserving)
            (Nat.not_lt.mpr (List.getElem?_eq_none_iff.mp hdevice))

theorem timing (hart : Nat) : Passive (timerValue hart) := by
  apply bind state
  intro b
  cases b.timer with
  | none => exact value 0
  | some device =>
      cases device with
      | mtimer driver => exact readingDriver driver hart
      | clock number => exact readingClock number

/-!
# Records
-/

theorem logging (entry : LogRecord) : Passive (log entry) := by
  apply bind state
  intro b
  cases b.logger with
  | traced limit =>
      change Passive (if limit.admits entry.level then _ else pure ())
      split
      · exact recording trivial
      · exact value ()
  | console installed =>
      cases installed with
      | none => exact value ()
      | some limit =>
          change Passive (if limit.admits entry.level then _ else pure ())
          split
          · apply bind (timing _)
            intro ticks
            apply bind (bind state fun _ => value _)
            intro frequency
            refine bind ?_ fun stamp => modifying fun b => ?_
            · cases timestamp ticks frequency with
              | ok stamp => exact value stamp
              | error fault => exact exit fun _ => nofun
            · exact ⟨b.bus, b.clocks, [], _, by simp, rfl⟩
          · exact value ()

end Passive

theorem Passive.keeping {α : Type} {step : BenchM α} (h : Passive step)
    {invariant : Bench → Prop} (halike : ∀ b b', Alike b b' → invariant b → invariant b') :
    Keeps invariant step := by
  intro b hb
  cases hrun : step b with
  | ok value b' => exact halike b b' ((h b).of_ok (.refl b) hrun) hb
  | error exit b' => exact halike b b' ((h b).of_error (.refl b) hrun).1 hb

/-!
# What lasts through reads and records

Reading advances counters, but moves none of them and leaves the rest of memory alone.
-/

/-- An invariant that is kept as clocks and counters advance and records are written. -/
structure Observed (invariant : Bench → Prop) : Prop where
  ticking {b : Bench} (address : UInt64) :
    invariant b → invariant { b with bus := b.bus.tick address }
  writing {b : Bench} (clocks : List Clock) (trace : List Entry) (output : String) :
    invariant b → invariant { b with clocks := clocks, trace := trace, output := output }

namespace Observed

variable {invariant : Bench → Prop} (h : Observed invariant)

include h

theorem recording (entry : Entry) : Keeps invariant (record entry) :=
  .modifying fun b hb => h.writing b.clocks (entry :: b.trace) b.output hb

theorem loading32 (address : UInt64) : Keeps invariant (load32 address : BenchM UInt32) := by
  unfold load32
  split
  · refine Keeps.looking fun b _ => Keeps.bind (.modifying fun _ hb => h.ticking address hb) ?_
    exact fun _ => (h.recording _).bind fun _ => .value _
  · exact .exit _

theorem loading64 (address : UInt64) : Keeps invariant (load64 address : BenchM UInt64) := by
  unfold load64
  split
  · refine Keeps.looking fun b _ => Keeps.bind (.modifying fun _ hb => h.ticking address hb) ?_
    exact fun _ => (h.recording _).bind fun _ => .value _
  · exact .exit _

theorem accessing (access : RegisterAccess) (address : UInt64) :
    Keeps invariant (access.read address : BenchM UInt64) := by
  cases access with
  | whole => exact h.loading64 address
  | halves =>
      refine Keeps.polling ?_ patience
      refine (h.loading32 _).bind fun high => (h.loading32 _).bind fun low => ?_
      exact (h.loading32 _).bind fun again => Keeps.value _

theorem timing (hart : Nat) : Keeps invariant (timerValue hart) := by
  refine Keeps.looking fun b _ => ?_
  cases b.timer with
  | none => exact .value 0
  | some device =>
      cases device with
      | clock number =>
          refine Keeps.looking fun b _ =>
            Keeps.bind (.modifying fun b hb => ?_) fun _ => .value _
          exact h.writing _ b.trace b.output hb
      | mtimer driver =>
          refine Keeps.bind (Keeps.looking fun b _ => .value _) fun serving => ?_
          cases serving with
          | none => exact .value 0
          | some number => exact (keeps_mtimer number).bind fun device => h.accessing _ _

theorem logging (entry : LogRecord) : Keeps invariant (log entry) := by
  refine Keeps.looking fun b _ => ?_
  cases b.logger with
  | traced limit =>
      dsimp only
      split
      · exact h.recording _
      · exact .value ()
  | console installed =>
      cases installed with
      | none => exact .value ()
      | some limit =>
          dsimp only
          split
          · refine (h.timing _).bind fun ticks => ?_
            refine Keeps.bind (Keeps.looking fun b _ => .value _) fun frequency => ?_
            refine Keeps.bind ?_ fun stamp => .modifying fun b hb => ?_
            · cases timestamp ticks frequency with
              | ok stamp => exact .value stamp
              | error fault => exact .exit _
            · exact h.writing b.clocks b.trace _ hb
          · exact .value ()

end Observed

end Bench

/-!
# No log
-/

/-- Whether a logger keeps no record at all. -/
def Logger.isOff : Logger → Bool
  | .traced limit => limit.isNone
  | .console installed => (installed.getD none).isNone

namespace Bench

theorem log_of_isOff {b : Bench} (h : b.logger.isOff = true) (entry : LogRecord) :
    log entry b = .ok () b := by
  unfold log
  rw [Interhart.get_bind]
  cases hlogger : b.logger with
  | traced limit =>
      rw [hlogger] at h
      cases limit with
      | none => rfl
      | some limit => cases h
  | console installed =>
      rw [hlogger] at h
      cases installed with
      | none => rfl
      | some limit =>
          cases limit with
          | none => rfl
          | some limit => cases h

end Bench
end Interhart
