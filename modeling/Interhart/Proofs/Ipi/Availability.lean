import Interhart.Proofs.Ipi.History

/-!
# Sends and hart availability

A send asks once, when it begins, which harts are available.  So the harts it addresses
were available then, and one of them is still available when its turn comes unless it has
been made unavailable since the send began.
-/

namespace Interhart
namespace Ipi

variable {κ σ : Type}

def Withdrawn (hart : Nat) (recent : List Incident) : Prop :=
  Unmended (fun incident _ => incident = .madeUnavailable hart) (· = .madeAvailable hart) recent

@[simp] theorem not_withdrawn_nil (hart : Nat) : ¬Withdrawn hart [] := not_unmended_nil

theorem withdrawn_cons_iff {hart : Nat} {incident : Incident} {recent : List Incident} :
    Withdrawn hart (incident :: recent) ↔
      incident = .madeUnavailable hart ∨
        (incident ≠ .madeAvailable hart ∧ Withdrawn hart recent) :=
  unmended_cons_iff

theorem mem_adjust_iff {hart : Nat} (hlimit : hart < hartLimit) {incident : Incident}
    {available : HartSet} :
    hart ∈ incident.adjust available ↔
      incident ≠ .madeUnavailable hart ∧
        (incident = .madeAvailable hart ∨ hart ∈ available) := by
  cases incident with
  | madeAvailable other =>
      simp only [Incident.adjust, HartSet.mem_insert, Incident.madeAvailable.injEq, ne_eq,
        reduceCtorEq, not_false_eq_true, true_and]
      constructor
      · rintro (⟨rfl, -⟩ | h)
        · exact Or.inl rfl
        · exact Or.inr h
      · rintro (rfl | h)
        · exact Or.inl ⟨rfl, hlimit⟩
        · exact Or.inr h
  | madeUnavailable other =>
      simp [Incident.adjust, eq_comm]
  | _ => simp [Incident.adjust]

theorem mem_availableAfter_iff {hart : Nat} {available : HartSet} (h : hart ∈ available)
    (recent : List Incident) :
    hart ∈ availableAfter recent available ↔ ¬Withdrawn hart recent := by
  induction recent with
  | nil => simp [h]
  | cons incident recent ih =>
      rw [availableAfter_cons, mem_adjust_iff (HartSet.lt_of_mem h), ih, withdrawn_cons_iff]
      by_cases hmends : incident = .madeAvailable hart
      · simp [hmends]
      · simp [hmends]

/-- When a send comes to a hart, to store its event for it or to wait for it, the
hart was available when the send began, and it is available now exactly if it has
not been withdrawn since. -/
theorem available_iff_not_withdrawn {env : Environment κ σ} {others : List Call → Run κ σ Unit}
    (hothers : MakesCalls env others) {origin : Nat} {targets : Option HartSet} {event : Event}
    {posted : List Nat} {s t : System κ σ}
    (hsend : UnderWay env others origin targets event posted s t) {hart : Nat}
    (hreached : hart ∈ s.dispatcher.reached origin targets) :
    hart ∈ s.dispatcher.available ∧
      ∃ since, t.history = since ++ s.history ∧
        (hart ∈ t.dispatcher.available ↔ ¬Withdrawn hart since) := by
  have havailable := (Dispatcher.mem_reached_iff.mp hreached).2.2
  rcases hsend.exists_course hothers with ⟨_, hcourse⟩
  rcases hcourse.later with ⟨since, hsince⟩
  refine ⟨havailable, since, hsince.history, ?_⟩
  rw [hsince.available]
  exact mem_availableAfter_iff havailable since

/-!
# A hart that halts while a send is under way

Hart 0 sends to the harts 1 and 2.  Hart 1 halts hart 2 while it carries the event out,
and then the turn comes to hart 2.
-/

def haltingMachine : Machine where
  dispatcher := { controller := some (.scripted 0), available := .ofList [1, 2] }
  outside := { script :=
    { atHart := fun hart => if hart = 1 then [1] else if hart = 2 then [2] else []
      reactions := [⟨1, .fenceI, [.send 1 (some (.single 2)) (some .halt)]⟩] } }

def haltedMachine : Machine :=
  finalState ([1].forM (post Bench.environment Machine.handle (.scripted 0) 0 .fenceI))
    haltingMachine

theorem underWay_haltedMachine :
    UnderWay Bench.environment Machine.handle 0 none .fenceI [1] haltingMachine haltedMachine :=
  ⟨by decide +kernel, .scripted 0, rfl, ok_of_succeeds (by decide +kernel)⟩

theorem available_iff_not_withdrawn_haltedMachine :
    2 ∈ haltingMachine.dispatcher.available ∧
      ∃ since, haltedMachine.history = since ++ haltingMachine.history ∧
        (2 ∈ haltedMachine.dispatcher.available ↔ ¬Withdrawn 2 since) :=
  available_iff_not_withdrawn makesCalls_handle underWay_haltedMachine (by decide +kernel)

/-- A parked hart can be addressed: its turn comes after it has become unavailable, and the
send stores its event for it all the same. -/
theorem parked_hart_addressed :
    UnderWay Bench.environment Machine.handle 0 none .fenceI [1] haltingMachine haltedMachine ∧
      [1] ++ [2] <+: (haltingMachine.dispatcher.reached 0 none).toList ∧
      .performed 2 .halt ∈ haltedMachine.history ∧ ¬2 ∈ haltedMachine.dispatcher.available ∧
      ∃ u, Machine.send 0 none (some .fenceI) haltingMachine = .ok () u ∧
        ∃ since, u.history = since ++ .stored 0 2 .fenceI :: haltedMachine.history := by
  refine ⟨underWay_haltedMachine, ?_, ?_, ?_,
    finalState (Machine.send 0 none (some .fenceI)) haltingMachine, ok_of_succeeds ?_,
    [.left 2, .performed 2 .fenceI, .cleared 2, .entered 2, .raised 2], ?_⟩
  all_goals decide +kernel

end Ipi
end Interhart
