import Interhart.Proofs.Ipi.History
import Interhart.Proofs.Machine.Pending

/-!
# No event is overslept

A hart learns of an event in its slot through its pending bit.  The receiver clears the bit
before it looks into the slot and the sender sets it after the slot has been filled, so a
full slot has its bit set, except while a hart is carrying out an event that it has found
there.
-/

namespace Interhart
namespace Ipi

variable {κ σ : Type}

/-- A controller keeps one pending bit for each hart.  Interrupting a hart sets its bit,
clearing the interrupt resets it, and nothing else writes any of them. -/
structure PendingBits (env : Environment κ σ) (controller : κ) (pending : σ → Nat → Bool) :
    Prop where
  raise {hart : Nat} {outside outside' : σ} {calls : List Call} :
    env.raise controller hart outside = .ok calls outside' →
      ∀ other, pending outside' other = if other = hart then true else pending outside other
  clear {hart : Nat} {outside outside' : σ} :
    env.clear controller hart outside = .ok () outside' →
      ∀ other, pending outside' other = if other = hart then false else pending outside other
  perform {hart : Nat} {event : Event} {outside outside' : σ} {calls : List Call} :
    env.perform hart event outside = .ok calls outside' → pending outside' = pending outside
  returned {answer : Except Error Unit} {outside outside' : σ} :
    env.returned answer outside = .ok () outside' → pending outside' = pending outside
  log {record : LogRecord} {outside outside' : σ} :
    env.log record outside = .ok () outside' → pending outside' = pending outside

/-!
# Half-done calls

While a hart carries out an event that it has found in its slot, the slot may be full although
the bit is not set.  The events for which this is so are excused; each level of nesting excuses
one more, and takes it back when the hart leaves its slot.
-/

/-- The slot of a hart has its pending bit set if it is full, unless the event
in it is excused. -/
def Guarded (pending : σ → Nat → Bool) (hart : Nat) (excused : List Event) (s : System κ σ) :
    Prop :=
  ∀ event, s.dispatcher.slots hart = some event → pending s.outside hart = true ∨
    event ∈ excused

namespace Guarded

variable {pending : σ → Nat → Bool} {hart : Nat} {excused : List Event} {s t : System κ σ}

theorem of_empty (h : s.dispatcher.slots hart = none) : Guarded pending hart excused s := by
  intro event hevent
  rw [h] at hevent
  cases hevent

theorem of_pending (h : pending s.outside hart = true) : Guarded pending hart excused s :=
  fun _ _ => Or.inl h

theorem keeping (h : Guarded pending hart excused s)
    (hslot : t.dispatcher.slots hart = s.dispatcher.slots hart)
    (hbit : pending t.outside hart = pending s.outside hart) :
    Guarded pending hart excused t := by
  intro event hevent
  rw [hslot] at hevent
  rw [hbit]
  exact h event hevent

theorem within (h : Guarded pending hart excused s) {outside : σ}
    (hbits : pending outside = pending s.outside) :
    Guarded pending hart excused (s.within outside) := h.keeping rfl (congrFun hbits hart)

theorem consuming_self {seen : Event} (h : Guarded pending hart (seen :: excused) s) :
    Guarded pending hart excused (s.consuming hart seen) := by
  intro event hevent
  change (s.dispatcher.consumed hart seen).slots hart = some event at hevent
  rw [Dispatcher.slots_consumed_self] at hevent
  by_cases hsame : s.dispatcher.slots hart = some seen
  · rw [if_pos hsame] at hevent
    cases hevent
  · rw [if_neg hsame] at hevent
    rcases h event hevent with hbit | hmem
    · exact Or.inl hbit
    · rcases List.mem_cons.mp hmem with rfl | hmem
      · exact absurd hevent hsame
      · exact Or.inr hmem

theorem resetting (h : Guarded pending hart excused s) (target : Nat) :
    Guarded pending hart excused (s.resetting target) := by
  by_cases htarget : hart = target
  · subst htarget
    exact of_empty (Dispatcher.slots_setSlot_self _ hart none)
  · exact h.keeping (Dispatcher.slots_setSlot_of_ne _ _ htarget) rfl

theorem consuming_of_ne (h : Guarded pending hart excused s) {target : Nat}
    (hne : hart ≠ target) (seen : Event) :
    Guarded pending hart excused (s.consuming target seen) :=
  h.keeping (Dispatcher.slots_consumed_of_ne _ seen hne) rfl

end Guarded

def Uses (controller : κ) (s : System κ σ) : Prop :=
  ∀ present, s.dispatcher.controller = some present → present = controller

theorem Uses.keeping {controller : κ} {s t : System κ σ} (h : Uses controller s)
    (hcontroller : t.dispatcher.controller = s.dispatcher.controller) : Uses controller t := by
  intro present hpresent
  exact h present (hcontroller.symm.trans hpresent)

theorem Uses.later {controller : κ} {s t : System κ σ} (h : Uses controller s)
    (hlater : Later s t) : Uses controller t := by
  rcases hlater with ⟨_, hsince⟩
  exact h.keeping hsince.controller

def Task.Uses (controller : κ) : Task κ → Prop
  | .posts raised _ _ _ => raised = controller
  | _ => True

section Bits

variable {env : Environment κ σ} {controller : κ} {pending : σ → Nat → Bool} {hart : Nat}
  {excused : List Event} {s t : System κ σ}

theorem Entered.guarded_of_ne (hbits : PendingBits env controller pending) {target : Nat}
    (hentered : Entered env target s t) (huses : Uses controller s) (hne : hart ≠ target)
    (h : Guarded pending hart excused s) : Guarded pending hart excused t := by
  cases hentered with
  | unregistered => exact h
  | registered hc cleared =>
      cases huses _ hc
      exact h.keeping rfl ((hbits.clear cleared hart).trans (if_neg hne))

theorem Course.guarded (hbits : PendingBits env controller pending) {task : Task κ}
    (hcourse : Course env task s t) (htask : task.Uses controller) (huses : Uses controller s)
    (h : Guarded pending hart excused s) : Guarded pending hart excused t := by
  induction hcourse generalizing excused with
  | done => exact h
  | next first _ ihfirst ihrest =>
      exact ihrest trivial (huses.later first.later) (ihfirst trivial huses h)
  | @idle target _ _ entered empty =>
      by_cases htarget : hart = target
      · subst htarget
        exact Guarded.of_empty empty
      · have hentered := entered.guarded_of_ne hbits huses htarget h
        exact hentered
  | @handled target event _ _ _ t' _ entered full _ performed inner ih =>
      have hinner := huses.later entered.later
      by_cases htarget : hart = target
      · subst htarget
        -- The bit of the hart has been cleared, so what it has found is excused meanwhile.
        have hfound : Guarded pending hart (event :: excused) t' := by
          intro found hfull
          rw [full] at hfull
          cases hfull
          exact Or.inr List.mem_cons_self
        exact (ih trivial hinner (hfound.within (hbits.perform performed))).consuming_self
      · have hentered := entered.guarded_of_ne hbits huses htarget h
        refine Guarded.consuming_of_ne ?_ htarget event
        exact ih trivial hinner (hentered.within (hbits.perform performed))
  | @parked target _ _ _ t' _ entered full performed inner ih =>
      have hinner : Uses controller ((t'.withdrawing target).consuming target .halt) :=
        (huses.later entered.later).keeping (Dispatcher.controller_consumed _ target _)
      refine ih trivial hinner (Guarded.within ?_ (hbits.perform performed))
      by_cases htarget : hart = target
      · subst htarget
        -- A hart that parks has emptied its slot before.
        refine Guarded.of_empty ?_
        change ((t'.withdrawing hart).dispatcher.consumed hart .halt).slots hart = none
        rw [Dispatcher.slots_consumed_self]
        exact if_pos full
      · have hentered := entered.guarded_of_ne hbits huses htarget h
        have hwithdrawn : Guarded pending hart excused (t'.withdrawing target) := hentered
        exact hwithdrawn.consuming_of_ne htarget .halt
  | refused returned => exact h.within (hbits.returned returned)
  | dropped _ log returned =>
      exact h.within ((hbits.returned returned).trans (hbits.log log))
  | sent registered _ _ returned ih =>
      exact (ih (huses _ registered) huses h).within (hbits.returned returned)
  | unfit => exact h
  | @rejected target s => exact h.resetting target
  | @broughtUp _ target _ s registered cleared =>
      cases huses _ registered
      by_cases htarget : hart = target
      · subst htarget
        exact Guarded.of_empty (Dispatcher.slots_setSlot_self _ hart none)
      · exact (h.resetting target).keeping rfl
          ((hbits.clear cleared hart).trans (if_neg htarget))
  | admitted => exact h
  | withdrawn => exact h
  | posted => exact h
  | @post _ origin event target _ _ raised _ logged s t' _ raise inner log rest ihinner
    ihrest =>
      cases htask
      have hstored : Uses controller
          (((s.storing origin target event).within raised).noting (.raised target)) := huses
      have hinner : Uses controller t' := hstored.later inner.later
      refine ihrest rfl hinner (Guarded.within ?_ (hbits.log log))
      refine ihinner trivial hstored ?_
      by_cases htarget : hart = target
      · subst htarget
        exact Guarded.of_pending ((hbits.raise raise hart).trans (if_pos rfl))
      · have hbit := (hbits.raise raise hart).trans (if_neg htarget)
        exact h.keeping (Dispatcher.slots_setSlot_of_ne _ _ htarget) hbit

end Bits

/-!
# Runs of calls

Between calls, when no send and no processing is under way, nothing is excused.
-/

/-- What a run from a fresh dispatcher can lead to, with no call left under way.  The given
controller is the first to be registered; between the calls its surroundings may do anything
that leaves the pending bits as they are. -/
inductive Reached [DecidableEq κ] (env : Environment κ σ) (others : List Call → Run κ σ Unit)
    (controller : κ) (pending : σ → Nat → Bool) : System κ σ → Prop
  | fresh (outside : σ) : Reached env others controller pending { outside := outside }
  | elsewhere {s outside} (before : Reached env others controller pending s)
      (bits : pending outside = pending s.outside) :
      Reached env others controller pending (s.within outside)
  | registered {candidate s t} (before : Reached env others controller pending s)
      (first : s.dispatcher.controller = none → candidate = controller)
      (done : register env candidate s = .ok () t) : Reached env others controller pending t
  | called {made s t} (before : Reached env others controller pending s)
      (done : call env others made s = .ok () t) : Reached env others controller pending t

theorem controller_of_register [DecidableEq κ] {env : Environment κ σ} {candidate : κ}
    {s t : System κ σ} (h : register env candidate s = .ok () t) :
    ∃ record outside, env.log record s.outside = .ok () outside ∧
      t = (s.changing fun d => { d with
        controller := some (s.dispatcher.controller.getD candidate) }).within outside := by
  rcases ok_of_bind_ok h with ⟨present, s₁, hget, h⟩
  cases hget
  rcases ok_of_bind_ok h with ⟨_, s₂, hset, h⟩
  cases hset
  split at h
  · rcases ok_of_onOutside h with ⟨outside, hlog, ht⟩
    exact ⟨_, outside, hlog, ht⟩
  · rcases ok_of_onOutside h with ⟨outside, hlog, ht⟩
    exact ⟨_, outside, hlog, ht⟩

theorem Reached.uses_and_guarded [DecidableEq κ] {env : Environment κ σ}
    {others : List Call → Run κ σ Unit} (hothers : MakesCalls env others) {controller : κ}
    {pending : σ → Nat → Bool} (hbits : PendingBits env controller pending) {s : System κ σ}
    (hreached : Reached env others controller pending s) (hart : Nat) :
    Uses controller s ∧ Guarded pending hart [] s := by
  induction hreached with
  | fresh outside => exact ⟨nofun, Guarded.of_empty rfl⟩
  | elsewhere _ bits ih => exact ⟨ih.1, ih.2.within bits⟩
  | @registered candidate s t _ first done ih =>
      rcases controller_of_register done with ⟨record, outside, hlog, rfl⟩
      refine ⟨?_, ih.2.keeping rfl (congrFun (hbits.log hlog) hart)⟩
      intro present hpresent
      change some (s.dispatcher.controller.getD candidate) = some present at hpresent
      cases hc : s.dispatcher.controller with
      | none =>
          rw [hc] at hpresent
          cases hpresent
          exact first hc
      | some used =>
          rw [hc] at hpresent
          cases hpresent
          exact ih.1 _ hc
  | called _ done ih =>
      have hcourse := course_of_call hothers.follows done
      exact ⟨ih.1.later hcourse.later, hcourse.guarded hbits trivial ih.1 ih.2⟩

theorem Reached.calls [DecidableEq κ] {env : Environment κ σ}
    {others : List Call → Run κ σ Unit} {controller : κ} {pending : σ → Nat → Bool}
    {calls : List Call} {s t : System κ σ}
    (h : Reached env others controller pending s)
    (hcalls : calls.forM (call env others) s = .ok () t) :
    Reached env others controller pending t := by
  induction calls generalizing s with
  | nil =>
      cases hcalls
      exact h
  | cons made calls ih =>
      rcases ok_of_bind_ok hcalls with ⟨_, s₁, hfirst, hrest⟩
      exact ih (h.called hfirst) hrest

/-- Between calls, each hart whose slot holds an event has its pending bit set. -/
theorem pending_of_full [DecidableEq κ] {env : Environment κ σ}
    {others : List Call → Run κ σ Unit} (hothers : MakesCalls env others) {controller : κ}
    {pending : σ → Nat → Bool} (hbits : PendingBits env controller pending) {s : System κ σ}
    (hreached : Reached env others controller pending s) {hart : Nat}
    (hfull : s.dispatcher.slots hart ≠ none) : pending s.outside hart = true := by
  rcases Option.ne_none_iff_exists'.mp hfull with ⟨event, hevent⟩
  rcases (hreached.uses_and_guarded hothers hbits hart).2 event hevent with hbit | hmem
  · exact hbit
  · exact absurd hmem List.not_mem_nil

theorem pendingBits_scripted (device : Nat) :
    PendingBits Bench.environment (.scripted device) (Bench.pending device) where
  raise {hart b b' calls} h other := by
    rcases ok_of_bind_ok h with ⟨_, b₁, hrecord, h⟩
    cases hrecord
    cases h
    change (if device = device ∧ hart = other then true else b.pending device other) = _
    simp [eq_comm]
  clear {hart b b'} h other := by
    cases h
    change (if device = device ∧ hart = other then false else b.pending device other) = _
    simp [eq_comm]
  perform {hart event b b' calls} h := by
    have hrecord : Bench.KeepsPending device (Bench.record (.performed hart event)) :=
      .recording fun _ _ => rfl
    exact hrecord.bind (fun _ => .reacting hart event) b calls b' h
  returned {answer b b'} h := Bench.KeepsPending.recording (fun _ _ => rfl) b () b' h
  log {entry b b'} h := Bench.KeepsPending.logging entry b () b' h

def drowsyBench : Bench where
  script :=
    { atHart := fun hart => if hart = 2 then [1] else []
      reactions := [⟨1, .soft, [.send 2 (some (.single 1)) (some .soft)]⟩] }

def drowsyMachine : Machine :=
  finalState (Machine.registerController (.scripted 0)) { outside := drowsyBench }

def wakenedMachine : Machine :=
  finalState ([.bringUp 1, .bringUp 2, .send 0 none (some .soft)].forM
    (call Bench.environment Machine.handle)) drowsyMachine

theorem reached_wakenedMachine :
    Reached Bench.environment Machine.handle (.scripted 0)
    (Bench.pending 0) wakenedMachine := by
  have hregistered : Reached Bench.environment Machine.handle (.scripted 0) (Bench.pending 0)
      drowsyMachine :=
    .registered (.fresh drowsyBench) (fun _ => rfl) (ok_of_succeeds (by decide +kernel))
  exact hregistered.calls (ok_of_succeeds (by decide +kernel))

theorem pending_of_full_wakenedMachine :
    wakenedMachine.dispatcher.slots 2 ≠ none ∧ wakenedMachine.outside.pending 0 2 = true := by
  have hfull : wakenedMachine.dispatcher.slots 2 ≠ none := by decide +kernel
  exact ⟨hfull,
    pending_of_full makesCalls_handle (pendingBits_scripted 0) reached_wakenedMachine
    hfull⟩

end Ipi
end Interhart
