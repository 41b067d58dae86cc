import Interhart.Proofs.Ipi.History
import Interhart.Proofs.Ipi.Invariance

/-!
# Rounds of a hart

A hart that goes through the processing of its slot carries out what it finds there, and this
stays in the history however the round ends.
-/

namespace Interhart
namespace Ipi

variable {κ σ : Type}

theorem later_of_process {env : Environment κ σ} {hart : Nat} {s u : System κ σ}
    (h : Course env (.call (.process hart)) s u) : Later (s.noting (.entered hart)) u := by
  cases h with
  | idle entered _ => exact entered.later_noting.noting _ fun _ => rfl
  | handled entered _ _ _ inner =>
      refine (Later.trans ?_ inner.later).consuming _ _ |>.noting _ fun _ => rfl
      exact (entered.later_noting.noting _ fun _ => rfl).within _
  | parked entered _ _ inner =>
      refine (Later.trans ?_ inner.later).noting _ fun _ => rfl
      have hparked := entered.later_noting.withdrawing hart
      exact ((hparked.consuming hart .halt).noting _ fun _ => rfl).within _

theorem Entered.exists_entry {env : Environment κ σ} {hart : Nat} {s t : System κ σ}
    (h : Entered env hart s t) :
    t.dispatcher = s.dispatcher ∧ ∃ entry, t.history = entry ++ s.history ∧
      (entry = [.entered hart] ∨ entry = [.cleared hart, .entered hart]) := by
  cases h with
  | unregistered => exact ⟨rfl, _, rfl, Or.inl rfl⟩
  | registered => exact ⟨rfl, _, rfl, Or.inr rfl⟩

def Recorded (incident : Incident) (past : List Incident) (s : System κ σ) : Prop :=
  ∃ recent, s.history = recent ++ past ∧ incident ∈ recent

theorem Recorded.of_history {incident : Incident} {past : List Incident} (s t : System κ σ)
    (hhistory : t.history = s.history) (h : Recorded incident past s) :
    Recorded incident past t := by
  unfold Recorded
  rw [hhistory]
  exact h

theorem invariant_recorded (env : Environment κ σ) (incident : Incident)
    (past : List Incident) : Invariant env (fun _ => True) (Recorded incident past) := by
  apply invariant_of_history Recorded.of_history
  rintro s other ⟨recent, hrecent, hmem⟩
  exact ⟨other :: recent, congrArg (other :: ·) hrecent, List.mem_cons_of_mem _ hmem⟩

def Extends (others : List Call → Run κ σ Unit) : Prop :=
  ∀ incident past calls, Keeps (Recorded incident past) (others calls)

theorem MakesCalls.extends {env : Environment κ σ} {others : List Call → Run κ σ Unit}
    (hothers : MakesCalls env others) : Extends others :=
  fun incident past _ =>
    hothers.keeps (invariant_recorded env incident past).upheld fun _ _ => trivial

section Performing

variable {env : Environment κ σ} {others : List Call → Run κ σ Unit} (hothers : Extends others)
  {hart : Nat}

include hothers

theorem recorded_of_effect {past : List Incident} {s : System κ σ}
    (hpast : ∃ recent, s.history = recent ++ past) (event : Event) :
    Contract (· = s) (effect env others hart event)
      (fun _ => Recorded (.performed hart event) past)
      fun _ => Recorded (.performed hart event) past := by
  have hbegun : Recorded (.performed hart event) past (s.noting (.performed hart event)) := by
    rcases hpast with ⟨recent, hrecent⟩
    exact ⟨_ :: recent, congrArg (_ :: ·) hrecent, List.mem_cons_self⟩
  have hrest : Keeps (Recorded (.performed hart event) past)
      (onOutside (env.perform hart event) >>= others : Run κ σ Unit) :=
    (keeps_onOutside_of_history Recorded.of_history _).bind fun calls => hothers _ _ calls
  exact Keeps.changed hbegun hrest

theorem recorded_of_full {event : Event} {s t : System κ σ} (hentered : Entered env hart s t)
    (hfull : s.dispatcher.slots hart = some event) :
    Recorded (.performed hart event) s.history (finalState (drain env others hart) s) := by
  rcases hentered.exists_entry with ⟨hsame, entry, hentry, -⟩
  rw [← hsame] at hfull
  have hinvariant := invariant_recorded env (.performed hart event) s.history
  have hleave (ending : Ending) : Keeps (Recorded (.performed hart event) s.history)
      (note (.left hart) >>= fun _ => pure ending : Run κ σ Ending) :=
    (hinvariant.note rfl).bind fun _ => .value ending
  have hdrain : Contract (· = s) (drain env others hart)
      (fun _ => Recorded (.performed hart event) s.history)
      fun _ => Recorded (.performed hart event) s.history := by
    intro u hu
    rw [hu]
    by_cases hhalt : event = .halt
    · subst hhalt
      rw [drain_of_halt hentered hfull]
      have hwithdrawn : ((t.withdrawing hart).consuming hart .halt).history =
          (.madeUnavailable hart :: entry) ++ s.history :=
        congrArg (Incident.madeUnavailable hart :: ·) hentry
      exact (recorded_of_effect hothers ⟨_, hwithdrawn⟩ .halt).bind
        (fun _ => hleave .parked) _ rfl
    · rw [drain_of_running hentered hfull hhalt]
      have hrest (_ : Unit) := (hinvariant.consume hart event).bind fun _ => hleave .resumed
      exact (recorded_of_effect hothers ⟨entry, hentry⟩ event).bind hrest t rfl
  exact hdrain.finalState rfl

omit hothers in
theorem not_recorded_of_empty {s t : System κ σ} (hentered : Entered env hart s t)
    (hempty : s.dispatcher.slots hart = none) (event : Event) :
    ¬Recorded (.performed hart event) s.history (finalState (drain env others hart) s) := by
  rcases hentered.exists_entry with ⟨hsame, entry, hentry, hshape⟩
  rw [← hsame] at hempty
  rintro ⟨recent, hrecent, hmem⟩
  have hend : finalState (drain env others hart) s = t.noting (.left hart) := by
    unfold finalState
    rw [drain_of_empty hentered hempty]
  rw [hend, System.history_noting, hentry] at hrecent
  have hsplit : recent = .left hart :: entry := (List.append_cancel_right hrecent).symm
  rw [hsplit] at hmem
  rcases hshape with rfl | rfl
  all_goals simp at hmem

end Performing

end Ipi
end Interhart
