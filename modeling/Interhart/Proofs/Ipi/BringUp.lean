import Interhart.Machine.Board
import Interhart.Proofs.Ipi.Rounds

/-!
# Harts that may not come up

A call that is to bring up a hart is refused if there is no controller, if the hart has no
slot, or if the controller does not know the hart.  The controller is asked last, when the
slot has been emptied already, so its refusal comes too late for an event that was still
in the slot: it is lost, and whoever waited for it goes on.
-/

namespace Interhart
namespace Ipi

variable {κ σ : Type}

inductive Refused (env : Environment κ σ) (hart : Nat) (s : System κ σ) :
    Error → System κ σ → Prop
  | unregistered (h : s.dispatcher.controller = none) : Refused env hart s .noDevice s
  | slotless {controller : κ} (registered : s.dispatcher.controller = some controller)
      (h : ¬hart < hartLimit) : Refused env hart s .invalidArgument s
  | unserved {controller : κ} {error : Error}
      (registered : s.dispatcher.controller = some controller) (limit : hart < hartLimit)
      (h : env.refusal controller hart s.outside = some error) :
      Refused env hart s error (s.resetting hart)

theorem refused_of_answer {env : Environment κ σ} {hart : Nat} {error : Error}
    {s t : System κ σ} (h : tryBringUp env hart s = .ok (.error error) t) :
    Refused env hart s error t := by
  cases hc : s.dispatcher.controller with
  | none =>
      rw [tryBringUp_of_unregistered hc] at h
      cases h
      exact .unregistered hc
  | some controller =>
      by_cases hlimit : hart < hartLimit
      · rw [tryBringUp_of_registered hc hlimit] at h
        cases hrefusal : env.refusal controller hart s.outside with
        | some found =>
            rw [hrefusal] at h
            cases h
            exact .unserved hc hlimit hrefusal
        | none =>
            -- Nothing refuses the hart once the controller has not.
            rw [hrefusal] at h
            rcases ok_of_bind_ok h with ⟨_, _, -, h⟩
            cases h
      · rw [tryBringUp_of_slotless hc hlimit] at h
        cases h
        exact .slotless hc hlimit

/-!
# What a refusal leaves of an event
-/

/-- A call that is to bring up a hart does not come to ask a controller. -/
def Unasked (hart : Nat) (s : System κ σ) : Prop :=
  s.dispatcher.controller = none ∨ hartLimit ≤ hart

namespace Refused

variable {env : Environment κ σ} {hart : Nat} {error : Error} {s t : System κ σ}

theorem eq_of_unasked (h : Refused env hart s error t) (hunasked : Unasked hart s) : t = s := by
  cases h with
  | unregistered => rfl
  | slotless => rfl
  | unserved registered limit =>
      rcases hunasked with hnone | hlimit
      · rw [registered] at hnone
        cases hnone
      · exact absurd limit (Nat.not_lt.mpr hlimit)

theorem empty_of_not_unasked (h : Refused env hart s error t) (hasked : ¬Unasked hart s) :
    t.dispatcher.slots hart = none := by
  cases h with
  | unregistered h => exact absurd (Or.inl h) hasked
  | slotless _ h => exact absurd (Or.inr (Nat.not_lt.mp h)) hasked
  | unserved => exact Dispatcher.slots_setSlot_self _ hart none

theorem slots_iff_unasked (h : Refused env hart s error t) {event : Event}
    (hevent : s.dispatcher.slots hart = some event) :
    t.dispatcher.slots hart = some event ↔ Unasked hart s := by
  by_cases hunasked : Unasked hart s
  · simp [h.eq_of_unasked hunasked, hevent, hunasked]
  · simp [h.empty_of_not_unasked hunasked, hunasked]

theorem frame (h : Refused env hart s error t) :
    t.outside = s.outside ∧ t.dispatcher.controller = s.dispatcher.controller ∧
      t.dispatcher.available = s.dispatcher.available ∧
      ∀ other, other ≠ hart → t.dispatcher.slots other = s.dispatcher.slots other := by
  cases h with
  | unregistered => exact ⟨rfl, rfl, rfl, fun _ _ => rfl⟩
  | slotless => exact ⟨rfl, rfl, rfl, fun _ _ => rfl⟩
  | unserved =>
      exact ⟨rfl, rfl, rfl, fun _ hother => Dispatcher.slots_setSlot_of_ne _ none hother⟩

end Refused

theorem succeeds_await_iff {hart : Nat} {s : System κ σ} :
    succeeds (await hart : Run κ σ Unit) s = true ↔ s.dispatcher.slots hart = none := by
  unfold await succeeds
  rw [get_bind]
  cases s.dispatcher.slots hart with
  | none => exact iff_of_true rfl rfl
  | some event => exact iff_of_false Bool.false_ne_true nofun

/-- A hart that is refused leaves everything but its own slot as it was: the surroundings
with all registers, the controller, the available harts, and the other slots.  An event in
its slot stays there exactly if the controller has not been asked; only then is it carried
out when the hart next begins to process its slot, and only then does a sender that waits for
it go on waiting. -/
theorem event_kept_iff_unasked {env : Environment κ σ} {hart : Nat} {error : Error}
    {s t : System κ σ} (hrefused : tryBringUp env hart s = .ok (.error error) t) :
    (t.outside = s.outside ∧ t.dispatcher.controller = s.dispatcher.controller ∧
      t.dispatcher.available = s.dispatcher.available ∧
      ∀ other, other ≠ hart → t.dispatcher.slots other = s.dispatcher.slots other) ∧
    (t.dispatcher.slots hart = s.dispatcher.slots hart ↔
      s.dispatcher.slots hart = none ∨ Unasked hart s) ∧
    ∀ event, s.dispatcher.slots hart = some event →
      (t.dispatcher.slots hart = some event ↔ Unasked hart s) ∧
      (succeeds (await hart : Run κ σ Unit) t = true ↔ ¬Unasked hart s) ∧
      ∀ {others : List Call → Run κ σ Unit} {begun : System κ σ},
        MakesCalls env others → Entered env hart t begun →
        (Recorded (.performed hart event) t.history (finalState (drain env others hart) t) ↔
          Unasked hart s) := by
  have h := refused_of_answer hrefused
  refine ⟨h.frame, ?_, ?_⟩
  · by_cases hunasked : Unasked hart s
    · simp [h.eq_of_unasked hunasked, hunasked]
    · simp [h.empty_of_not_unasked hunasked, hunasked, eq_comm]
  · intro event hevent
    refine ⟨h.slots_iff_unasked hevent, ?_, ?_⟩
    · rw [succeeds_await_iff]
      by_cases hunasked : Unasked hart s
      · simp [h.eq_of_unasked hunasked, hevent, hunasked]
      · simp [h.empty_of_not_unasked hunasked, hunasked]
    · intro others begun hothers hentered
      by_cases hunasked : Unasked hart s
      · have hfull := (h.slots_iff_unasked hevent).mpr hunasked
        exact iff_of_true (recorded_of_full hothers.extends hentered hfull) hunasked
      · have hempty := h.empty_of_not_unasked hunasked
        exact iff_of_false (not_recorded_of_empty hentered hempty event) hunasked

/-!
# A hart without a device

The harts 0 and 1 have a device, hart 2 has none.  An event is stored for hart 2, which has
been made available all the same, and then hart 2 is to come up.
-/

def partlyServed : Bench where
  mswis := [⟨0x1000, 0x1000, ⟨0, 2⟩, []⟩]

def addressedMachine : Machine :=
  finalState (Machine.send 0 (some (.single 2)) (some .soft))
    (finalState (Ipi.makeAvailable 2)
      (finalState (Machine.bindMswi Machine.boardDriver 0) { outside := partlyServed }))

theorem refused_addressedMachine :
    tryBringUp Bench.environment 2 addressedMachine =
      .ok (.error .noDevice) (addressedMachine.resetting 2) := by
  have hregistered : addressedMachine.dispatcher.controller =
      some (.mswi Machine.boardDriver) := by
    decide +kernel
  have hrefusal : Bench.environment.refusal (.mswi Machine.boardDriver) 2
      addressedMachine.outside = some .noDevice := by decide +kernel
  rw [tryBringUp_of_registered hregistered (by decide), hrefusal]
  rfl

theorem event_kept_iff_unasked_addressedMachine :
    addressedMachine.dispatcher.slots 2 = some .soft ∧
      (succeeds (await 2 : MachineM Unit) (addressedMachine.resetting 2) = true ↔
        ¬Unasked 2 addressedMachine) ∧
      (Recorded (.performed 2 .soft) (addressedMachine.resetting 2).history
          (finalState (drain Bench.environment Machine.handle 2)
            (addressedMachine.resetting 2)) ↔
        Unasked 2 addressedMachine) := by
  have hfull : addressedMachine.dispatcher.slots 2 = some .soft := by decide +kernel
  have hends : succeeds (drain Bench.environment Machine.handle 2)
      (addressedMachine.resetting 2) = true := by decide +kernel
  rcases event_kept_iff_unasked refused_addressedMachine with ⟨-, -, hevent⟩
  rcases hevent .soft hfull with ⟨-, hwait, hnext⟩
  rcases exists_ok_of_succeeds hends with ⟨ending, hdrain⟩
  rcases exists_entered hdrain with ⟨begun, hentered⟩
  exact ⟨hfull, hwait, hnext makesCalls_handle hentered⟩

/-- A hart that has no device is refused, and the event that it was still to
carry out is gone. -/
theorem refused_hart_loses_event :
    tryBringUp Bench.environment 2 addressedMachine =
        .ok (.error .noDevice) (addressedMachine.resetting 2) ∧
      addressedMachine.dispatcher.slots 2 = some .soft ∧
      (addressedMachine.resetting 2).dispatcher.slots 2 = none :=
  ⟨refused_addressedMachine, by decide +kernel, rfl⟩

end Ipi
end Interhart
