import Interhart.Proofs.Ipi.Delivery
import Interhart.Proofs.Ipi.Rounds

/-!
# Events that arrive meanwhile

While a hart carries an event out, other harts may send it further ones.  It empties its
slot afterwards unless another event has come to stand there, and tells this by the kind
of the event: an event of the kind that it has just carried out is taken for the old one
and lost.  A hart that halts empties its slot beforehand and loses nothing.
-/

namespace Interhart
namespace Ipi

variable {κ σ : Type}

/-!
# Harts beside each other

A sender that waits for a hart does not hold up the others, and the hart may get on with
its own work while the sender waits.
-/

/-- What harts do beside a hart that is at work.  They make calls, and some of the sends have
not returned yet when this hart has finished: they have stored their event, and wait. -/
inductive Beside (env : Environment κ σ) : System κ σ → System κ σ → Prop
  | done {s} : Beside env s s
  | call {made s t u} (first : Course env (.call made) s t) (rest : Beside env t u) :
      Beside env s u
  | waiting {controller origin targets event s t u}
      (registered : s.dispatcher.controller = some controller)
      (posts : Course env
        (.posts controller origin event (s.dispatcher.reached origin targets).toList) s t)
      (rest : Beside env t u) : Beside env s u

/-- A handler lets harts work beside the one that asks for their calls. -/
structure Overlaps (env : Environment κ σ) (others : List Call → Run κ σ Unit) : Prop where
  beside {calls : List Call} {s t : System κ σ} : others calls s = .ok () t → Beside env s t
  extending : Extends others

section Launching

variable (env : Environment κ σ) (others : List Call → Run κ σ Unit)

def launchSend (origin : Nat) (targets : Option HartSet) (event : Event) : Run κ σ Unit := do
  let dispatcher := (← get).dispatcher
  match dispatcher.controller with
  | none => call env others (.send origin targets (some event))
  | some controller =>
      (dispatcher.reached origin targets).toList.forM (post env others controller origin event)

def launch : Call → Run κ σ Unit
  | .send origin targets (some event) => launchSend env others origin targets event
  | made => call env others made

def launchAll (calls : List Call) : Run κ σ Unit := calls.forM (launch env others)

variable {env others}

theorem beside_of_launchSend (hothers : MakesCalls env others) {origin : Nat}
    {targets : Option HartSet} {event : Event} {s t u : System κ σ}
    (h : launchSend env others origin targets event s = .ok () t) (rest : Beside env t u) :
    Beside env s u := by
  unfold launchSend at h
  rw [get_bind] at h
  cases hc : s.dispatcher.controller with
  | none =>
      simp only [hc] at h
      exact .call (course_of_call hothers.follows h) rest
  | some controller =>
      simp only [hc] at h
      exact .waiting hc (course_of_posts hothers.follows h) rest

theorem beside_of_launch (hothers : MakesCalls env others) {made : Call} {s t u : System κ σ}
    (h : launch env others made s = .ok () t) (rest : Beside env t u) : Beside env s u := by
  have hcall (h : call env others made s = .ok () t) : Beside env s u :=
    .call (course_of_call hothers.follows h) rest
  cases made with
  | send origin targets event =>
      cases event with
      | none => exact hcall h
      | some event => exact beside_of_launchSend hothers h rest
  | process hart => exact hcall h
  | bringUp hart => exact hcall h
  | makeAvailable hart => exact hcall h
  | makeUnavailable hart => exact hcall h

theorem beside_of_launchAll (hothers : MakesCalls env others) {calls : List Call}
    {s t : System κ σ} (h : launchAll env others calls s = .ok () t) : Beside env s t := by
  induction calls generalizing s with
  | nil =>
      cases h
      exact .done
  | cons made calls ih =>
      rcases ok_of_bind_ok h with ⟨_, s₁, hfirst, hrest⟩
      exact beside_of_launch hothers hfirst (ih hrest)

theorem keeps_launch {invariant : System κ σ → Prop}
    (hinvariant : Invariant env (fun _ => True) invariant)
    (hothers : ∀ calls, Keeps invariant (others calls)) (made : Call) :
    Keeps invariant (launch env others made) := by
  have hcall (made : Call) : Keeps invariant (call env others made) :=
    hinvariant.upheld.call (fun calls _ => hothers calls) trivial
  cases made with
  | send origin targets event =>
      cases event with
      | none => exact hcall (.send origin targets none)
      | some event =>
          apply Keeps.looking
          intro s _
          dsimp only
          cases s.dispatcher.controller with
          | none => exact hcall (.send origin targets (some event))
          | some controller =>
              exact .forM fun hart _ =>
                hinvariant.upheld.post (fun calls _ => hothers calls) controller origin
                  event hart
  | process hart => exact hcall (.process hart)
  | bringUp hart => exact hcall (.bringUp hart)
  | makeAvailable hart => exact hcall (.makeAvailable hart)
  | makeUnavailable hart => exact hcall (.makeUnavailable hart)

theorem extends_launchAll (hothers : Extends others) : Extends (launchAll env others) := by
  intro incident past calls
  have hinvariant := invariant_recorded env incident past
  exact .forM fun made _ => keeps_launch hinvariant (hothers incident past) made

theorem overlaps_launchAll (hothers : MakesCalls env others) :
    Overlaps env (launchAll env others) :=
  ⟨beside_of_launchAll hothers, extends_launchAll hothers.extends⟩

end Launching

/-!
# What a slot holds, by its history
-/

def lastPut (hart : Nat) (recent : List Incident) : Option (Option Event) :=
  recent.findSome? (Incident.puts hart)

theorem lastPut_cons_of_none {hart : Nat} {incident : Incident} {recent : List Incident}
    (h : incident.puts hart = none) :
    lastPut hart (incident :: recent) = lastPut hart recent := by
  simp [lastPut, h]

theorem lastPut_cons_of_some {hart : Nat} {incident : Incident} {content : Option Event}
    {recent : List Incident} (h : incident.puts hart = some content) :
    lastPut hart (incident :: recent) = some content := by
  simp [lastPut, h]

theorem lastPut_append_of_none {hart : Nat} {later earlier : List Incident}
    (h : lastPut hart earlier = none) :
    lastPut hart (later ++ earlier) = lastPut hart later := by
  unfold lastPut at h ⊢
  rw [List.findSome?_append, h, Option.or_none]

/-- The slot of a hart held `content` when the history was `base`, and as long as the hart has
not begun to process its slot since, it holds what was put there last. -/
def Told (hart : Nat) (base : List Incident) (content : Option Event) (s : System κ σ) : Prop :=
  ∃ recent, s.history = recent ++ base ∧
    (.entered hart ∉ recent → s.dispatcher.slots hart = (lastPut hart recent).getD content)

namespace Told

variable {hart : Nat} {base : List Incident} {content : Option Event} {s : System κ σ}

theorem start (hart : Nat) (s : System κ σ) :
    Told hart s.history (s.dispatcher.slots hart) s :=
  ⟨[], rfl, fun _ => rfl⟩

theorem noting (h : Told hart base content s) (incident : Incident)
    (hputs : incident.puts hart = none) : Told hart base content (s.noting incident) := by
  rcases h with ⟨recent, hhistory, hslot⟩
  refine ⟨incident :: recent, congrArg (incident :: ·) hhistory, fun hnew => ?_⟩
  rw [lastPut_cons_of_none hputs]
  exact hslot fun hmem => hnew (List.mem_cons_of_mem incident hmem)

theorem within (h : Told hart base content s) (outside : σ) :
    Told hart base content (s.within outside) := h

theorem putting (h : Told hart base content s) {target : Nat} {put : Option Event}
    {incident : Incident}
    (hputs : incident.puts hart = if target = hart then some put else none) :
    Told hart base content ((s.changing (·.setSlot target put)).noting incident) := by
  by_cases htarget : target = hart
  · subst htarget
    rw [if_pos rfl] at hputs
    rcases h with ⟨recent, hhistory, -⟩
    refine ⟨incident :: recent, congrArg (incident :: ·) hhistory, fun _ => ?_⟩
    rw [lastPut_cons_of_some hputs]
    exact Dispatcher.slots_setSlot_self s.dispatcher target put
  · rw [if_neg htarget] at hputs
    have hslots : (s.dispatcher.setSlot target put).slots hart = s.dispatcher.slots hart :=
      Dispatcher.slots_setSlot_of_ne _ put (Ne.symm htarget)
    refine noting ?_ incident hputs
    rcases h with ⟨recent, hhistory, hslot⟩
    exact ⟨recent, hhistory, fun hnew => hslots.trans (hslot hnew)⟩

theorem storing (h : Told hart base content s) (origin target : Nat) (event : Event) :
    Told hart base content (s.storing origin target event) := h.putting rfl

theorem resetting (h : Told hart base content s) (target : Nat) :
    Told hart base content (s.resetting target) := h.putting rfl

theorem admitting (h : Told hart base content s) (target : Nat) :
    Told hart base content (s.admitting target) := noting h _ rfl

theorem withdrawing (h : Told hart base content s) (target : Nat) :
    Told hart base content (s.withdrawing target) := noting h _ rfl

theorem consuming (h : Told hart base content s) {target : Nat} (htarget : target ≠ hart)
    (seen : Event) : Told hart base content (s.consuming target seen) := by
  have hslots : (s.dispatcher.consumed target seen).slots hart = s.dispatcher.slots hart :=
    Dispatcher.slots_consumed_of_ne _ seen (Ne.symm htarget)
  rcases h with ⟨recent, hhistory, hslot⟩
  exact ⟨recent, hhistory, fun hnew => hslots.trans (hslot hnew)⟩

theorem entered (h : Told hart base content s) {env : Environment κ σ} {target : Nat}
    {t : System κ σ} (hentered : Entered env target s t) : Told hart base content t := by
  cases hentered with
  | unregistered => exact h.noting _ rfl
  | registered => exact ((h.noting (.entered target) rfl).within _).noting (.cleared target) rfl

theorem of_entered (h : Told hart base content s) {t : System κ σ}
    (hlater : Later (s.noting (.entered hart)) t) : Told hart base content t := by
  rcases h with ⟨recent, hhistory, -⟩
  rcases hlater with ⟨since, hsince⟩
  refine ⟨since ++ .entered hart :: recent, ?_, fun hnew => ?_⟩
  · rw [hsince.history, System.history_noting, hhistory]
    simp
  · exact absurd (List.mem_append_right since List.mem_cons_self) hnew

end Told

theorem Course.told {env : Environment κ σ} {hart : Nat} {base : List Incident}
    {content : Option Event} {task : Task κ} {s t : System κ σ} (hcourse : Course env task s t)
    (h : Told hart base content s) : Told hart base content t := by
  induction hcourse with
  | done => exact h
  | next _ _ ihfirst ihrest => exact ihrest (ihfirst h)
  | idle entered _ => exact (h.entered entered).noting _ rfl
  | @handled target _ _ _ _ _ _ entered full running performed inner ih =>
      by_cases htarget : target = hart
      · subst htarget
        exact h.of_entered (later_of_process (.handled entered full running performed inner))
      · refine ((ih (Told.within ?_ _)).consuming htarget _).noting _ rfl
        exact (h.entered entered).noting _ rfl
  | @parked target _ _ _ _ _ entered full performed inner ih =>
      by_cases htarget : target = hart
      · subst htarget
        exact h.of_entered (later_of_process (.parked entered full performed inner))
      · refine (ih (Told.within ?_ _)).noting _ rfl
        exact (((h.entered entered).withdrawing _).consuming htarget _).noting _ rfl
  | refused => exact h
  | dropped => exact h
  | sent _ _ _ _ ih => exact ih h
  | unfit => exact h
  | rejected => exact h.resetting _
  | broughtUp =>
      refine Told.noting (Told.admitting ?_ _) _ rfl
      exact ((h.resetting _).within _).noting _ rfl
  | admitted => exact h.admitting _
  | withdrawn => exact h.withdrawing _
  | posted => exact h
  | post _ _ _ _ ihinner ihrest =>
      refine ihrest (Told.within (ihinner ?_) _)
      exact ((h.storing _ _ _).within _).noting _ rfl

theorem Beside.told {env : Environment κ σ} {hart : Nat} {base : List Incident}
    {content : Option Event} {s t : System κ σ} (hbeside : Beside env s t)
    (h : Told hart base content s) : Told hart base content t := by
  induction hbeside with
  | done => exact h
  | call first _ ih => exact ih (first.told h)
  | waiting _ posts _ ih => exact ih (posts.told h)

/-!
# What a round leaves
-/

/-- What is left in a slot of what was put there last, when the hart has
carried an event out. -/
def survivor (event : Event) : Option (Option Event) → Option Event
  | some (some newer) => if newer ≠ event ∨ event = .halt then some newer else none
  | _ => none

theorem survivor_some (event newer : Event) :
    survivor event (some (some newer)) =
      if newer ≠ event ∨ event = .halt then some newer else none := rfl

theorem survivor_some_iff {event newer : Event} :
    survivor event (some (some newer)) = some newer ↔ newer ≠ event ∨ event = .halt := by
  rw [survivor_some]
  split
  · exact iff_of_true rfl ‹_›
  · exact iff_of_false nofun ‹_›

theorem survivor_of_running {event : Event} (hrunning : event ≠ .halt)
    (put : Option (Option Event)) :
    (if put.getD (some event) = some event then none else put.getD (some event)) =
      survivor event put := by
  rcases put with _ | _ | newer
  · simp [survivor]
  · simp [survivor]
  · rw [survivor_some]
    by_cases hnewer : newer = event
    · simp [hnewer, hrunning]
    · simp [hnewer]

theorem survivor_halt (put : Option (Option Event)) : put.getD none = survivor .halt put := by
  rcases put with _ | _ | newer
  · rfl
  · rfl
  · simp [survivor_some]

theorem Entered.exists_opening {env : Environment κ σ} {hart : Nat} {s t : System κ σ}
    (h : Entered env hart s t) :
    ∃ opening, t.history = opening ++ s.history ∧ .entered hart ∈ opening ∧
      lastPut hart opening = none := by
  rcases h.exists_entry with ⟨-, entry, hhistory, hentry⟩
  refine ⟨entry, hhistory, ?_, ?_⟩
  · rcases hentry with rfl | rfl
    all_goals simp
  · rcases hentry with rfl | rfl
    all_goals rfl

theorem Beside.slot_of_lone {env : Environment κ σ} {hart : Nat} {begun v : System κ σ}
    (hbeside : Beside env begun v) {past opening recent : List Incident}
    (hbegun : begun.history = opening ++ past) (hopening : .entered hart ∈ opening)
    (hputs : lastPut hart opening = none) (hrecent : .left hart :: v.history = recent ++ past)
    (hlone : recent.count (.entered hart) = 1) :
    v.dispatcher.slots hart = (lastPut hart recent).getD (begun.dispatcher.slots hart) := by
  rcases hbeside.told (Told.start hart begun) with ⟨since, hsince, hslot⟩
  have hsplit : recent = .left hart :: (since ++ opening) := by
    have hsame : recent ++ past = (.left hart :: (since ++ opening)) ++ past := by
      rw [← hrecent, hsince, hbegun]
      simp
    exact List.append_cancel_right hsame
  have hnew : .entered hart ∉ since := by
    intro hagain
    have hfirst : 0 < opening.count (.entered hart) := List.count_pos_iff.mpr hopening
    have hsecond : 0 < since.count (.entered hart) := List.count_pos_iff.mpr hagain
    have hleft : Incident.left hart ≠ .entered hart := nofun
    rw [hsplit, List.count_cons_of_ne hleft, List.count_append] at hlone
    omega
  rw [hslot hnew, hsplit, lastPut_cons_of_none rfl, lastPut_append_of_none hputs]

section Round

variable {env : Environment κ σ} {others : List Call → Run κ σ Unit}
  (hothers : Overlaps env others) {hart : Nat}

include hothers

/-- A hart that has carried an event out leaves what others have put into its slot, but for an
event of the same kind. -/
theorem slot_of_round {ending : Ending} {event : Event} {s u : System κ σ}
    (hround : Round env others hart s ending u) (hfull : s.dispatcher.slots hart = some event)
    {recent : List Incident} (hrecent : u.history = recent ++ s.history)
    (hlone : recent.count (.entered hart) = 1) :
    u.dispatcher.slots hart = survivor event (lastPut hart recent) := by
  cases hround with
  | idle entered empty =>
      rw [entered.exists_entry.1, hfull] at empty
      cases empty
  | @handled found _ outside t v entered full running _ inner =>
      rcases entered.exists_opening with ⟨opening, hopening, hmem, hputs⟩
      have hfound : found = event := by
        rw [entered.exists_entry.1, hfull] at full
        exact (Option.some.inj full).symm
      subst hfound
      have hbegun : ((t.noting (.performed hart found)).within outside).history =
          (.performed hart found :: opening) ++ s.history :=
        congrArg (Incident.performed hart found :: ·) hopening
      have hslot :=
        (hothers.beside inner).slot_of_lone hbegun (List.mem_cons_of_mem _ hmem) hputs
        hrecent hlone
      rw [System.dispatcher_within, System.dispatcher_noting, full] at hslot
      change (v.dispatcher.consumed hart found).slots hart = _
      rw [Dispatcher.slots_consumed_self, hslot]
      exact survivor_of_running running _
  | @parked _ outside t v entered full _ inner =>
      rcases entered.exists_opening with ⟨opening, hopening, hmem, hputs⟩
      have hhalt : event = .halt := by
        rw [entered.exists_entry.1, hfull] at full
        exact Option.some.inj full
      subst hhalt
      have hwithdrawn : (t.withdrawing hart).dispatcher.slots hart = some .halt := full
      have hempty : ((t.withdrawing hart).dispatcher.consumed hart .halt).slots hart =
          none := by
        rw [Dispatcher.slots_consumed_self, if_pos hwithdrawn]
      have hbegun : ((((t.withdrawing hart).consuming hart .halt).noting
          (.performed hart .halt)).within outside).history =
            (.performed hart .halt :: .madeUnavailable hart :: opening) ++ s.history :=
        congrArg (fun past => _ :: _ :: past) hopening
      have hslot := (hothers.beside inner).slot_of_lone hbegun
        (List.mem_cons_of_mem _ (List.mem_cons_of_mem _ hmem)) hputs hrecent hlone
      change v.dispatcher.slots hart =
        (lastPut hart recent).getD
          (((t.withdrawing hart).dispatcher.consumed hart .halt).slots hart)
        at hslot
      change v.dispatcher.slots hart = _
      rw [hslot, hempty]
      exact survivor_halt _

/-- While a hart carries out an event, others work beside it, and an event that they store for
it is the last thing that is put into its slot.  When the hart has finished its round, without
having begun another one meanwhile, the newer event is still in its slot exactly if it is of
another kind than the one that the hart has carried out, or if that was a halt.  Exactly then
does the hart carry the newer event out in its next round, however that ends. -/
theorem newer_kept_iff {ending : Ending} {event newer : Event} {s u : System κ σ}
    (hdrain : drain env others hart s = .ok ending u)
    (hfull : s.dispatcher.slots hart = some event) {recent : List Incident}
    (hrecent : u.history = recent ++ s.history) (hlone : recent.count (.entered hart) = 1)
    (hnewer : lastPut hart recent = some (some newer)) :
    (u.dispatcher.slots hart = some newer ↔ newer ≠ event ∨ event = .halt) ∧
    ∀ {begun : System κ σ}, Entered env hart u begun →
      (Recorded (.performed hart newer) u.history (finalState (drain env others hart) u) ↔
        newer ≠ event ∨ event = .halt) := by
  have hslot := slot_of_round hothers (round_of_drain hdrain) hfull hrecent hlone
  rw [hnewer] at hslot
  have hkept : u.dispatcher.slots hart = some newer ↔ newer ≠ event ∨ event = .halt := by
    rw [hslot]
    exact survivor_some_iff
  refine ⟨hkept, ?_⟩
  intro begun hbegun
  by_cases hfresh : newer ≠ event ∨ event = .halt
  · exact iff_of_true (recorded_of_full hothers.extending hbegun (hkept.mpr hfresh)) hfresh
  · have hempty : u.dispatcher.slots hart = none := by rw [hslot, survivor_some, if_neg hfresh]
    exact iff_of_false (not_recorded_of_empty hbegun hempty newer) hfresh

end Round

/-!
# Two senders at once

Hart 1 is to carry out a `soft`.  Meanwhile the harts 2 and 3 send it an event each, for which
they wait, so hart 1 has to finish its round first.
-/

def busyMachine (calls : List Call) : Machine :=
  finalState (Machine.send 0 (some (.single 1)) (some .soft)) {
    dispatcher := { controller := some (.scripted 0), available := .ofList [1, 2, 3] }
    outside := { script := { reactions := [⟨1, .soft, calls⟩] } } }

def senders : List Call :=
  [.send 2 (some (.single 1)) (some .fenceI), .send 3 (some (.single 1)) (some .sfenceVma)]

def unhurriedRound : MachineM Ending :=
  drain Bench.environment (launchAll Bench.environment Machine.handle) 1

def relievedMachine : Machine := finalState unhurriedRound (busyMachine senders)

theorem newer_kept_iff_relievedMachine :
    (relievedMachine.dispatcher.slots 1 = some .sfenceVma ↔
        Event.sfenceVma ≠ .soft ∨ Event.soft = .halt) ∧
      (Recorded (.performed 1 .sfenceVma) relievedMachine.history
          (finalState unhurriedRound relievedMachine) ↔
        Event.sfenceVma ≠ .soft ∨ Event.soft = .halt) := by
  have hends : succeeds unhurriedRound (busyMachine senders) = true := by decide +kernel
  have hclear : succeeds (Bench.environment.clear (.scripted 0) 1) relievedMachine.outside =
      true := by
    decide +kernel
  have hfull : (busyMachine senders).dispatcher.slots 1 = some .soft := by decide +kernel
  have hrecent : relievedMachine.history =
      [.left 1, .raised 1, .stored 3 1 .sfenceVma, .raised 1, .stored 2 1 .fenceI,
        .performed 1 .soft, .cleared 1, .entered 1] ++ (busyMachine senders).history := by
    decide +kernel
  rcases exists_ok_of_succeeds hends with ⟨ending, hdrain⟩
  rcases exists_ok_of_succeeds hclear with ⟨_, hcleared⟩
  rcases newer_kept_iff (overlaps_launchAll makesCalls_handle) hdrain hfull hrecent (by decide)
    (show lastPut 1 _ = some (some .sfenceVma) from rfl) with ⟨hkept, hcarried⟩
  have hentered := Entered.registered (rfl : relievedMachine.dispatcher.controller = _) hcleared
  exact ⟨hkept, hcarried hentered⟩

def servedMachine : Machine :=
  finalState (Machine.process 1) (busyMachine [.send 0 (some (.single 1)) (some .soft)])

/-- A `soft` that arrives while a hart carries out another one is stored after that, and nobody
ever carries it out. -/
theorem same_kind_lost :
    Machine.process 1 (busyMachine [.send 0 (some (.single 1)) (some .soft)]) =
        .ok () servedMachine ∧
      servedMachine.history = [.left 1, .raised 1, .stored 0 1 .soft, .performed 1 .soft,
        .cleared 1, .entered 1, .raised 1, .stored 0 1 .soft] ∧
      servedMachine.dispatcher.slots 1 = none ∧
      ∃ u, Machine.process 1 servedMachine = .ok () u ∧
        u.history = .left 1 :: .cleared 1 :: .entered 1 :: servedMachine.history := by
  refine ⟨ok_of_succeeds ?_, ?_, ?_, finalState (Machine.process 1) servedMachine,
    ok_of_succeeds ?_, ?_⟩
  all_goals decide +kernel

end Ipi
end Interhart
