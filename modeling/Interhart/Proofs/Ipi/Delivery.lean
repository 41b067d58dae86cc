import Interhart.Proofs.Ipi.History

/-!
# The delivery of synchronous events

A sender that waits for a hart waits until the slot of the hart is empty.  What this says
about its event depends on what has been put into the slot meanwhile: the hart has carried
the event out unless something else came to stand in the slot before it did so, and nobody
has sent the event again since.
-/

namespace Interhart
namespace Ipi

variable {κ σ : Type}

/-!
# The fate of an event in a slot
-/

def Incident.puts (hart : Nat) : Incident → Option (Option Event)
  | .stored _ target event => if target = hart then some (some event) else none
  | .reset target => if target = hart then some none else none
  | _ => none

/-- An event for a hart has been lost: something else was put into the slot before the hart
carried the event out, and the event has not been put there again. -/
def Lost (hart : Nat) (event : Event) (recent : List Incident) : Prop :=
  Unmended
    (fun incident earlier =>
      (∃ content, incident.puts hart = some content ∧ content ≠ some event) ∧
      .performed hart event ∉ earlier)
    (fun incident => incident.puts hart = some (some event)) recent

theorem not_lost_nil (hart : Nat) (event : Event) : ¬Lost hart event [] := not_unmended_nil

theorem lost_cons_of_puts_none {hart : Nat} {event : Event} {incident : Incident}
    {recent : List Incident} (h : incident.puts hart = none) :
    Lost hart event (incident :: recent) ↔ Lost hart event recent := by
  unfold Lost
  rw [unmended_cons_iff]
  simp [h]

theorem lost_cons_of_puts {hart : Nat} {event : Event} {incident : Incident}
    {content : Option Event} {recent : List Incident} (h : incident.puts hart = some content) :
    Lost hart event (incident :: recent) ↔
      content ≠ some event ∧ (.performed hart event ∉ recent ∨ Lost hart event recent) := by
  unfold Lost
  rw [unmended_cons_iff]
  simp only [h, Option.some.injEq, exists_eq_left']
  by_cases hcontent : content = some event
  · simp [hcontent]
  · simp [hcontent]

/-- Where an event stands that was once put into the slot of a hart, given what has happened
since and what the slot holds now. -/
structure Fate (hart : Nat) (event : Event) (recent : List Incident) (content : Option Event) :
    Prop where
  settled : content = some event ∨ .performed hart event ∈ recent ∨ Lost hart event recent
  lost : Lost hart event recent → content ≠ some event ∧ .performed hart event ∉ recent

namespace Fate

variable {hart : Nat} {event : Event} {recent : List Incident} {content : Option Event}

theorem nil : Fate hart event [] (some event) :=
  ⟨Or.inl rfl, fun h => absurd h (not_lost_nil hart event)⟩

theorem passing (h : Fate hart event recent content) {incident : Incident}
    (hputs : incident.puts hart = none) (hperformed : incident ≠ .performed hart event) :
    Fate hart event (incident :: recent) content := by
  have hmem : .performed hart event ∈ incident :: recent ↔ .performed hart event ∈ recent := by
    simp [hperformed.symm]
  constructor
  · rw [hmem, lost_cons_of_puts_none hputs]
    exact h.settled
  · rw [hmem, lost_cons_of_puts_none hputs]
    exact h.lost

theorem putting (h : Fate hart event recent content) {incident : Incident} {put : Option Event}
    (hputs : incident.puts hart = some put) (hperformed : incident ≠ .performed hart event) :
    Fate hart event (incident :: recent) put := by
  have hmem : .performed hart event ∈ incident :: recent ↔ .performed hart event ∈ recent := by
    simp [hperformed.symm]
  constructor
  · rw [hmem, lost_cons_of_puts hputs]
    by_cases hput : put = some event
    · exact Or.inl hput
    · by_cases hdone : .performed hart event ∈ recent
      · exact Or.inr (Or.inl hdone)
      · exact Or.inr (Or.inr ⟨hput, Or.inl hdone⟩)
  · rw [hmem, lost_cons_of_puts hputs]
    rintro ⟨hput, hdone | hlost⟩
    · exact ⟨hput, hdone⟩
    · exact ⟨hput, (h.lost hlost).2⟩

theorem performing (h : Fate hart event recent (some event)) (content : Option Event) :
    Fate hart event (.performed hart event :: recent) content := by
  have hlost : ¬Lost hart event (.performed hart event :: recent) := by
    rw [lost_cons_of_puts_none rfl]
    exact fun hlost => (h.lost hlost).1 rfl
  exact ⟨Or.inr (Or.inl List.mem_cons_self), fun h => absurd h hlost⟩

theorem emptying (h : Fate hart event recent content)
    (hdone : content = some event → .performed hart event ∈ recent) :
    Fate hart event recent none := by
  refine ⟨?_, fun hlost => ⟨nofun, (h.lost hlost).2⟩⟩
  rcases h.settled with hcontent | hsettled
  · exact Or.inr (Or.inl (hdone hcontent))
  · exact Or.inr hsettled

theorem performed_iff (h : Fate hart event recent none) :
    .performed hart event ∈ recent ↔ ¬Lost hart event recent := by
  constructor
  · exact fun hdone hlost => (h.lost hlost).2 hdone
  · intro hlost
    rcases h.settled with hcontent | hdone | hlost'
    · cases hcontent
    · exact hdone
    · exact absurd hlost' hlost

end Fate

/-!
# Fates along courses

The history `base` is that of the moment in which the event was put into the slot.
-/

def Fated (hart : Nat) (event : Event) (base : List Incident) (s : System κ σ) : Prop :=
  ∃ recent, s.history = recent ++ base ∧ Fate hart event recent (s.dispatcher.slots hart)

def Performed (hart : Nat) (event : Event) (base : List Incident) (s : System κ σ) : Prop :=
  ∃ recent, s.history = recent ++ base ∧ .performed hart event ∈ recent

theorem Performed.later {hart : Nat} {event : Event} {base : List Incident} {s t : System κ σ}
    (h : Performed hart event base s) (hlater : Later s t) : Performed hart event base t := by
  rcases h with ⟨recent, hhistory, hmem⟩
  rcases hlater with ⟨since, hsince⟩
  refine ⟨since ++ recent, ?_, List.mem_append_right since hmem⟩
  rw [hsince.history, hhistory, List.append_assoc]

namespace Fated

variable {hart : Nat} {event : Event} {base : List Incident} {s : System κ σ}

theorem noting (h : Fated hart event base s) (incident : Incident)
    (hputs : incident.puts hart = none) (hperformed : incident ≠ .performed hart event) :
    Fated hart event base (s.noting incident) := by
  rcases h with ⟨recent, hhistory, hfate⟩
  exact ⟨incident :: recent, congrArg (incident :: ·) hhistory, hfate.passing hputs hperformed⟩

theorem within (h : Fated hart event base s) (outside : σ) :
    Fated hart event base (s.within outside) := h

theorem putting (h : Fated hart event base s) {target : Nat} {content : Option Event}
    {incident : Incident}
    (hputs : incident.puts hart = if target = hart then some content else none)
    (hperformed : incident ≠ .performed hart event) :
    Fated hart event base ((s.changing (·.setSlot target content)).noting incident) := by
  rcases h with ⟨recent, hhistory, hfate⟩
  refine ⟨incident :: recent, congrArg (incident :: ·) hhistory, ?_⟩
  change Fate hart event (incident :: recent) ((s.dispatcher.setSlot target content).slots hart)
  by_cases htarget : target = hart
  · subst htarget
    rw [if_pos rfl] at hputs
    rw [Dispatcher.slots_setSlot_self]
    exact hfate.putting hputs hperformed
  · rw [if_neg htarget] at hputs
    rw [Dispatcher.slots_setSlot_of_ne _ _ (Ne.symm htarget)]
    exact hfate.passing hputs hperformed

theorem storing (h : Fated hart event base s) (origin target : Nat) (stored : Event) :
    Fated hart event base (s.storing origin target stored) := h.putting rfl nofun

theorem resetting (h : Fated hart event base s) (target : Nat) :
    Fated hart event base (s.resetting target) := h.putting rfl nofun

theorem admitting (h : Fated hart event base s) (target : Nat) :
    Fated hart event base (s.admitting target) := noting h _ rfl nofun

theorem withdrawing (h : Fated hart event base s) (target : Nat) :
    Fated hart event base (s.withdrawing target) := noting h _ rfl nofun

theorem entered (h : Fated hart event base s) {env : Environment κ σ} {target : Nat}
    {t : System κ σ} (hentered : Entered env target s t) : Fated hart event base t := by
  cases hentered with
  | unregistered => exact h.noting _ rfl nofun
  | registered =>
      exact ((h.noting (.entered target) rfl nofun).within _).noting (.cleared target) rfl nofun

theorem consuming (h : Fated hart event base s) {target : Nat} {seen : Event}
    (hdone : target = hart → seen = event → Performed hart event base s) :
    Fated hart event base (s.consuming target seen) := by
  rcases h with ⟨recent, hhistory, hfate⟩
  refine ⟨recent, hhistory, ?_⟩
  change Fate hart event recent ((s.dispatcher.consumed target seen).slots hart)
  by_cases htarget : target = hart
  · subst htarget
    rw [Dispatcher.slots_consumed_self]
    by_cases hslot : s.dispatcher.slots target = some seen
    · rw [if_pos hslot]
      refine hfate.emptying fun hevent => ?_
      have hseen : seen = event := Option.some.inj (hslot.symm.trans hevent)
      rcases hdone rfl hseen with ⟨recent', hhistory', hmem⟩
      rw [hhistory] at hhistory'
      rw [List.append_cancel_right hhistory']
      exact hmem
    · rw [if_neg hslot]
      exact hfate
  · rw [Dispatcher.slots_consumed_of_ne _ _ (Ne.symm htarget)]
    exact hfate

theorem performing (h : Fated hart event base s) {target : Nat} {performed : Event}
    (hslot : s.dispatcher.slots target = some performed) :
    Fated hart event base (s.noting (.performed target performed)) := by
  by_cases hsame : Incident.performed target performed = .performed hart event
  · cases hsame
    rcases h with ⟨recent, hhistory, hfate⟩
    rw [hslot] at hfate
    exact ⟨_ :: recent, congrArg (_ :: ·) hhistory, hfate.performing _⟩
  · exact h.noting _ rfl hsame

theorem parking (h : Fated hart event base s) {target : Nat} {seen : Event}
    (hslot : s.dispatcher.slots target = some seen) :
    Fated hart event base ((s.consuming target seen).noting (.performed target seen)) := by
  by_cases hsame : Incident.performed target seen = .performed hart event
  · cases hsame
    rcases h with ⟨recent, hhistory, hfate⟩
    rw [hslot] at hfate
    exact ⟨_ :: recent, congrArg (_ :: ·) hhistory, hfate.performing _⟩
  · refine (h.consuming fun htarget hseen => ?_).noting _ rfl hsame
    subst htarget hseen
    exact absurd rfl hsame

end Fated

theorem Performed.within {hart : Nat} {event : Event} {base : List Incident} {s : System κ σ}
    (h : Performed hart event base s) (outside : σ) :
    Performed hart event base (s.within outside) := h

theorem Performed.of_fated {hart : Nat} {event : Event} {base : List Incident} {s : System κ σ}
    (h : Fated hart event base s) :
    Performed hart event base (s.noting (.performed hart event)) := by
  rcases h with ⟨recent, hhistory, -⟩
  exact ⟨_ :: recent, congrArg (_ :: ·) hhistory, List.mem_cons_self⟩

/-- Courses keep fates.  A hart that empties its slot has begun and ended its processing within
the course, so it has found in the slot what it takes out. -/
theorem Course.fated {env : Environment κ σ} {hart : Nat} {event : Event} {base : List Incident}
    {task : Task κ} {s t : System κ σ} (hcourse : Course env task s t)
    (h : Fated hart event base s) : Fated hart event base t := by
  induction hcourse with
  | done => exact h
  | next _ _ ihfirst ihrest => exact ihrest (ihfirst h)
  | idle entered _ => exact (h.entered entered).noting _ rfl nofun
  | @handled target seen _ _ _ t _ entered full _ _ inner ih =>
      have hentered := h.entered entered
      have hinner := ih ((hentered.performing full).within _)
      refine (hinner.consuming fun htarget hseen => ?_).noting _ rfl nofun
      subst htarget hseen
      exact ((Performed.of_fated hentered).within _).later inner.later
  | parked entered full _ _ ih =>
      refine (ih (Fated.within ?_ _)).noting _ rfl nofun
      exact ((h.entered entered).withdrawing _).parking full
  | refused => exact h
  | dropped => exact h
  | sent _ _ _ _ ih => exact ih h
  | unfit => exact h
  | rejected => exact h.resetting _
  | broughtUp =>
      refine Fated.noting (Fated.admitting ?_ _) _ rfl nofun
      exact ((h.resetting _).within _).noting _ rfl nofun
  | admitted => exact h.admitting _
  | withdrawn => exact h.withdrawing _
  | posted => exact h
  | post _ _ _ _ ihinner ihrest =>
      refine ihrest (Fated.within (ihinner ?_) _)
      exact ((h.storing _ _ _).within _).noting _ rfl nofun

/-- When a synchronous send has returned, each hart it has stored its event for has carried the
event out after that, exactly if the event has not been lost. -/
theorem performed_iff_not_lost {env : Environment κ σ} {others : List Call → Run κ σ Unit}
    (hothers : MakesCalls env others) {controller : κ} {origin : Nat} {targets : Option HartSet}
    {event : Event} (hsync : event.isSynchronous = true) {s u : System κ σ}
    (hregistered : s.dispatcher.controller = some controller)
    (hsend : send env others origin targets (some event) s = .ok () u)
    {hart : Nat} (hreached : hart ∈ s.dispatcher.reached origin targets) :
    ∃ posted t since, posted ++ [hart] <+: (s.dispatcher.reached origin targets).toList ∧
      UnderWay env others origin targets event posted s t ∧
      u.history = since ++ .stored origin hart event :: t.history ∧
      (.performed hart event ∈ since ↔ ¬Lost hart event since) := by
  rcases posts_of_deliver hregistered (deliver_of_send hsend) with ⟨hposts, hawaited⟩
  rcases exists_underWay hregistered hposts hreached with ⟨posted, rest, t, hpart, hturn, hrest⟩
  have hfated : Fated hart event (.stored origin hart event :: t.history) u := by
    cases course_of_posts hothers.follows hrest with
    | post _ inner _ rest =>
        have hstored : Fated hart event (.stored origin hart event :: t.history)
            (t.storing origin hart event) := by
          refine ⟨[], rfl, ?_⟩
          change Fate hart event [] ((t.dispatcher.setSlot hart (some event)).slots hart)
          rw [Dispatcher.slots_setSlot_self]
          exact .nil
        refine rest.fated (Fated.within (inner.fated ?_) _)
        exact (hstored.within _).noting _ rfl nofun
  rcases hfated with ⟨since, hhistory, hfate⟩
  rw [hawaited hsync hart hreached] at hfate
  exact ⟨posted, t, since, hpart, hturn, hhistory, hfate.performed_iff⟩

/-!
# An event that is overtaken

Hart 0 sends a `fenceI` to the harts 1 and 2.  Hart 2 passes a `soft` on to hart 1 while it
carries its event out, and only then does hart 1 look into its slot.
-/

def overtakingMachine : Machine where
  dispatcher := { controller := some (.scripted 0), available := .ofList [1, 2] }
  outside := { script :=
    { atHart := fun hart => if hart = 2 then [2, 1] else []
      reactions := [⟨2, .fenceI, [.send 2 (some (.single 1)) (some .soft)]⟩] } }

def overtakenMachine : Machine :=
  finalState (Machine.send 0 none (some .fenceI)) overtakingMachine

theorem send_overtakingMachine :
    send Bench.environment Machine.handle 0 none (some .fenceI) overtakingMachine =
      .ok () overtakenMachine := ok_of_succeeds (by decide +kernel)

theorem performed_iff_not_lost_overtakenMachine :
    ∃ posted t since, posted ++ [1] <+: (overtakingMachine.dispatcher.reached 0 none).toList ∧
      UnderWay Bench.environment Machine.handle 0 none .fenceI posted overtakingMachine t ∧
      overtakenMachine.history = since ++ .stored 0 1 .fenceI :: t.history ∧
      (.performed 1 .fenceI ∈ since ↔ ¬Lost 1 .fenceI since) :=
  performed_iff_not_lost makesCalls_handle rfl rfl send_overtakingMachine (by decide +kernel)

/-- A synchronous send can return although a hart that it has stored its event for has never
carried it out. -/
theorem overtaken_event_not_performed :
    send Bench.environment Machine.handle 0 none (some .fenceI) overtakingMachine =
        .ok () overtakenMachine ∧
      .stored 0 1 .fenceI ∈ overtakenMachine.history ∧
      .performed 1 .fenceI ∉ overtakenMachine.history := by
  refine ⟨send_overtakingMachine, ?_, ?_⟩
  all_goals decide +kernel

end Ipi
end Interhart
