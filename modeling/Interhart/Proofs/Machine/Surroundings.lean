import Interhart.Proofs.Ipi.Invariance
import Interhart.Proofs.Machine.DriverTable

/-!
# What calls of the dispatcher leave alone

Interrupting harts, carrying events out and logging change the bus, the clocks, the trace, the
console, and which reactions are still to come.  Whatever speaks of nothing else lasts, however
deeply calls are nested and however they end.
-/

namespace Interhart
namespace Bench

/-- An invariant that is blind to what calls of the dispatcher change. -/
def Lasting (invariant : Bench → Prop) : Prop :=
  ∀ b bus clocks trace output reactions, reactions ⊆ b.script.reactions → invariant b →
    invariant { b with
      bus := bus, clocks := clocks, trace := trace, output := output
      script := { b.script with reactions := reactions } }

namespace Lasting

variable {invariant : Bench → Prop} (h : Lasting invariant)

include h

/-!
# Steps of the bench
-/

theorem alike {b b' : Bench} (halike : Alike b b') (hb : invariant b) : invariant b' := by
  rcases halike with ⟨bus, clocks, entries, output, _, rfl⟩
  exact h b bus clocks (entries ++ b.trace) output b.script.reactions (List.Subset.refl _) hb

theorem passing {α : Type} {step : BenchM α} (hpassive : Passive step) :
    Keeps invariant step :=
  hpassive.keeping fun _ _ => h.alike

theorem recording (entry : Entry) : Keeps invariant (record entry) := by
  apply Keeps.modifying
  intro b hb
  exact h b b.bus b.clocks (entry :: b.trace) b.output b.script.reactions
    (List.Subset.refl _) hb

theorem moving (change : Bus → Bus) :
    Keeps invariant (modify fun b => { b with bus := change b.bus }) := by
  apply Keeps.modifying
  intro b hb
  exact h b (change b.bus) b.clocks b.trace b.output b.script.reactions (List.Subset.refl _) hb

theorem writing32 (address : UInt64) (value : UInt32) :
    Keeps invariant (write32 address value) := by
  refine (h.moving (·.poke address value)).bind fun _ => (h.recording _).bind fun _ => ?_
  split
  · exact .value []
  · exact Keeps.looking fun b _ => .value _

theorem writing64 (address value : UInt64) : Keeps invariant (write64 address value) := by
  refine (h.moving (·.poke64 address value)).bind fun _ => (h.recording _).bind fun _ => ?_
  split
  · exact .value []
  · exact Keeps.looking fun b _ => .value _

theorem collecting (config : Mswi.Config) (hart : Nat) (value : UInt32) :
    Keeps invariant (collect (config.write hart value)) := by
  unfold Mswi.Config.write
  cases config.register? hart with
  | none => exact .value []
  | some address =>
      dsimp only
      unfold store32
      by_cases haligned : address % 4 = 0
      · rw [if_pos haligned]
        intro b hb
        rw [Machine.collect_write32]
        exact h.writing32 address value b hb
      · rw [if_neg haligned]
        exact .exit _

theorem raising (controller : Controller) (hart : Nat) :
    Keeps invariant (environment.raise controller hart) := by
  cases controller with
  | scripted number => exact (h.recording _).bind fun _ => Keeps.looking fun b _ => .value _
  | mswi driver =>
      refine Keeps.bind (Keeps.looking fun b _ => .value _) fun serving => ?_
      cases serving with
      | none => exact .value []
      | some number => exact (keeps_mswi number).bind fun config => h.collecting config hart 1

theorem clearing (controller : Controller) (hart : Nat) :
    Keeps invariant (environment.clear controller hart) := by
  cases controller with
  | scripted number => exact h.recording _
  | mswi driver =>
      refine Keeps.bind (Keeps.looking fun b _ => .value _) fun serving => ?_
      cases serving with
      | none => exact .value ()
      | some number =>
          exact (keeps_mswi number).bind fun config => (h.collecting config hart 0).discarding

theorem reacting (hart : Nat) (event : Ipi.Event) :
    Keeps invariant (takeReaction hart event) := by
  apply Contract.get_bind
  intro b hb
  dsimp only
  split
  · intro _ heq
    rw [heq]
    exact h b b.bus b.clocks b.trace b.output _ List.eraseP_subset hb
  · intro _ heq
    rw [heq]
    exact hb

end Lasting
end Bench

/-!
# Calls

On the side of the dispatcher, calls fill and empty slots, make harts available and
unavailable, and write history.
-/

namespace Machine

structure Enduring (invariant : Machine → Prop) : Prop where
  inside : ∀ (m : Machine) dispatcher history,
    dispatcher.controller = m.dispatcher.controller → invariant m →
      invariant { m with dispatcher := dispatcher, history := history }
  outside : ∀ m : Machine, Bench.Lasting fun b => invariant (m.within b)

namespace Enduring

theorem of_lasting {invariant : Bench → Prop} (h : Bench.Lasting invariant) :
    Enduring fun m => invariant m.outside where
  inside _ _ _ _ hm := hm
  outside _ := h

variable {invariant : Machine → Prop} (h : Enduring invariant)

include h

theorem onBench {α : Type} {step : BenchM α}
    (hstep : ∀ kept : Bench → Prop, Bench.Lasting kept → Keeps kept step) :
    Keeps invariant (Ipi.onOutside step) :=
  Ipi.keeps_onOutside_of_within fun m => hstep _ (h.outside m)

theorem passing {α : Type} {step : BenchM α} (hpassive : Bench.Passive step) :
    Keeps invariant (Ipi.onOutside step) :=
  h.onBench fun _ hkept => hkept.passing hpassive

theorem recording (entry : Entry) : Keeps invariant (Ipi.onOutside (Bench.record entry)) :=
  h.onBench fun _ hkept => hkept.recording entry

theorem dispatchingIn {env : Ipi.Environment Controller Bench}
    (hraise : env.raise = Bench.environment.raise)
    (hclear : env.clear = Bench.environment.clear)
    (hreturned : env.returned = Bench.environment.returned)
    (hlog : env.log = Bench.environment.log)
    (hperform : ∀ hart event, Keeps invariant (Ipi.onOutside (env.perform hart event))) :
    Ipi.Invariant env (fun _ => True) invariant where
  noting _ hm := h.inside _ _ _ rfl hm
  filling _ _ hm := h.inside _ _ _ rfl hm
  withdrawing {s} _ hm := h.inside s _ _ rfl hm
  admitting {s} _ _ hm := h.inside s _ _ rfl hm
  bringingUp {_ t _ _} _ _ _ _ ht := h.inside t _ _ rfl ht
  raise controller hart := by
    rw [hraise]
    exact (h.onBench fun _ hkept => hkept.raising controller hart).weaken (fun _ hm => hm)
      (fun _ _ hm => ⟨hm, fun _ _ => trivial⟩) fun _ _ hm => hm
  clear controller hart := by
    rw [hclear]
    exact h.onBench fun _ hkept => hkept.clearing controller hart
  perform hart event :=
    (hperform hart event).weaken (fun _ hm => hm) (fun _ _ hm => ⟨hm, fun _ _ => trivial⟩)
      fun _ _ hm => hm
  returned _ := by
    rw [hreturned]
    exact h.recording _
  log record := by
    rw [hlog]
    exact h.passing (.logging record)

theorem dispatching : Ipi.Upheld Bench.environment (fun _ => True) invariant := by
  apply Ipi.Invariant.upheld
  exact h.dispatchingIn rfl rfl rfl rfl fun hart event =>
    h.onBench fun _ hkept => (hkept.recording _).bind fun _ => hkept.reacting hart event

theorem dispatchingQuietly : Ipi.Upheld Bench.quietEnvironment (fun _ => True) invariant := by
  apply Ipi.Invariant.upheld
  exact h.dispatchingIn rfl rfl rfl rfl fun _ _ => h.onBench fun _ _ => .value _

theorem handling (calls : List Ipi.Call) : Keeps invariant (handle calls) :=
  Keeps.looking fun m _ => h.dispatching.carryOut m.outside.depth fun _ _ => trivial

theorem interrupting {step : BenchM (List Ipi.Call)}
    (hstep : ∀ kept : Bench → Prop, Bench.Lasting kept → Keeps kept step) :
    Keeps invariant (interrupting step) :=
  (h.onBench hstep).bind h.handling

theorem storing32 (address : UInt64) (value : UInt32) :
    Keeps invariant (store32 address value) := by
  unfold store32
  split
  · exact h.interrupting fun _ hkept => hkept.writing32 address value
  · exact .exit _

theorem storing64 (address value : UInt64) : Keeps invariant (store64 address value) := by
  unfold store64
  split
  · exact h.interrupting fun _ hkept => hkept.writing64 address value
  · exact .exit _

theorem accessing (access : RegisterAccess) (parked : UInt32) (address value : UInt64) :
    Keeps invariant (access.write parked address value) := by
  cases access with
  | whole => exact h.storing64 address value
  | halves =>
      refine (h.storing32 _ _).bind fun _ => (h.storing32 _ _).bind fun _ => h.storing32 _ _

end Enduring
end Machine

theorem Bench.Lasting.accessing {invariant : Bench → Prop} (h : Lasting invariant)
    (access : RegisterAccess) (parked : UInt32) (address value : UInt64) :
    Keeps (fun m : Machine => invariant m.outside) (access.write parked address value) :=
  (Machine.Enduring.of_lasting h).accessing access parked address value

end Interhart
