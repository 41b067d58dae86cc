import Interhart.Proofs.Contract
import Interhart.Proofs.Ipi.Course

/-!
# Invariants of the dispatcher

The dispatcher does few things to a system: it fills and empties slots, makes harts
available and unavailable, writes history, and asks the surroundings for something.  What
all of these keep is kept by every operation, however deeply calls are nested in it, and
whether it succeeds or breaks off half-way.
-/

namespace Interhart
namespace Ipi

variable {κ σ : Type}

section Surroundings

variable {α : Type} {invariant : System κ σ → Prop} {kept : σ → Prop} {step : EStateM Exit σ α}

theorem contract_onOutside {fact : α → Prop} (hpart : ∀ s, invariant s → kept s.outside)
    (hwithin : ∀ s outside, invariant s → kept outside → invariant (s.within outside))
    (h : Contract kept step (fun value outside => kept outside ∧ fact value) fun _ => kept) :
    Contract invariant (onOutside step : Run κ σ α) (fun value s => invariant s ∧ fact value)
      fun _ => invariant := by
  intro s hs
  cases hrun : step s.outside with
  | ok value outside =>
      rw [onOutside_of_ok hrun]
      have hend := h.of_ok (hpart s hs) hrun
      exact ⟨hwithin s outside hs hend.1, hend.2⟩
  | error exit outside =>
      rw [onOutside_of_error hrun]
      exact hwithin s outside hs (h.of_error (hpart s hs) hrun)

theorem keeps_onOutside (hpart : ∀ s, invariant s → kept s.outside)
    (hwithin : ∀ s outside, invariant s → kept outside → invariant (s.within outside))
    (h : Keeps kept step) : Keeps invariant (onOutside step : Run κ σ α) := by
  have htrivial : Contract kept step (fun _ outside => kept outside ∧ True) fun _ => kept :=
    h.weaken (fun _ hs => hs) (fun _ _ hs => ⟨hs, trivial⟩) fun _ _ hs => hs
  exact (contract_onOutside hpart hwithin htrivial).weaken (fun _ hs => hs) (fun _ _ hs => hs.1)
    fun _ _ hs => hs

theorem keeps_onOutside_of_within
    (h : ∀ s : System κ σ, Keeps (fun outside => invariant (s.within outside)) step) :
    Keeps invariant (onOutside step : Run κ σ α) := by
  intro s hs
  cases hrun : step s.outside with
  | ok value outside =>
      rw [onOutside_of_ok hrun]
      exact (h s).of_ok hs hrun
  | error exit outside =>
      rw [onOutside_of_error hrun]
      exact (h s).of_error hs hrun

end Surroundings

abbrev System.bringingUp (s : System κ σ) (hart : Nat) : System κ σ :=
  (s.admitting hart).noting (.broughtUp hart)

/-!
# Moves

Some steps belong together: an incident is noted with what it tells of, and a hart that parks
has become unavailable and emptied its slot.  An invariant may be broken in between.
-/

/-- What every move keeps, as long as the harts that are interrupted make only calls of a
permitted kind.  A hart that comes up has been found fit some time earlier, where the invariant
held as well. -/
structure Upheld (env : Environment κ σ) (permitted : Call → Prop)
    (invariant : System κ σ → Prop) : Prop where
  entering {s : System κ σ} (hart : Nat) : invariant s → invariant (s.noting (.entered hart))
  leaving {s : System κ σ} (hart : Nat) : invariant s → invariant (s.noting (.left hart))
  storing {s : System κ σ} (origin hart : Nat) (event : Event) :
    invariant s → invariant (s.storing origin hart event)
  resetting {s : System κ σ} (hart : Nat) : invariant s → invariant (s.resetting hart)
  consuming {s : System κ σ} (hart : Nat) (seen : Event) :
    invariant s → invariant (s.consuming hart seen)
  admitting {s : System κ σ} (hart : Nat) :
    permitted (.makeAvailable hart) → invariant s → invariant (s.admitting hart)
  withdrawing {s : System κ σ} (hart : Nat) :
    permitted (.makeUnavailable hart) → invariant s → invariant (s.withdrawing hart)
  bringingUp {s t : System κ σ} {controller : κ} {hart : Nat} : permitted (.bringUp hart) →
    s.dispatcher.controller = some controller → env.refusal controller hart s.outside = none →
      hart < hartLimit → invariant s → invariant t → invariant (t.bringingUp hart)
  raise (controller : κ) (hart : Nat) :
    Contract invariant (onOutside (env.raise controller hart))
    (fun calls s => invariant (s.noting (.raised hart)) ∧ ∀ call ∈ calls, permitted call)
    fun _ => invariant
  clear (controller : κ) (hart : Nat) :
    Contract invariant (onOutside (env.clear controller hart))
    (fun _ s => invariant (s.noting (.cleared hart))) fun _ => invariant
  perform (hart : Nat) (event : Event) :
    Contract (fun s => ∃ t, invariant t ∧ s = t.noting (.performed hart event))
      (onOutside (env.perform hart event))
      (fun calls s => invariant s ∧ ∀ call ∈ calls, permitted call) fun _ => invariant
  park (hart : Nat) :
    Contract (fun s => ∃ t, invariant t ∧
        s = ((t.withdrawing hart).consuming hart .halt).noting (.performed hart .halt))
      (onOutside (env.perform hart .halt))
      (fun calls s => invariant s ∧ ∀ call ∈ calls, permitted call) fun _ => invariant
  returned (answer : Except Error Unit) : Keeps invariant (onOutside (env.returned answer))
  log (record : LogRecord) : Keeps invariant (onOutside (env.log record))

/-- A call as a hart makes it for itself: it parks with the hart, and its refusal is shown. -/
def Call.run (env : Environment κ σ) (others : List Call → Run κ σ Unit) : Call → Run κ σ Unit
  | .process hart => Ipi.process env others hart
  | .send origin targets event => Ipi.send env others origin targets event
  | .bringUp hart => Ipi.bringUp env hart
  | .makeAvailable hart => Ipi.makeAvailable hart
  | .makeUnavailable hart => Ipi.makeUnavailable hart

theorem contract_note {invariant : System κ σ → Prop} {broken : Exit → System κ σ → Prop}
    (incident : Incident) :
    Contract (fun s => invariant (s.noting incident)) (note incident : Run κ σ Unit)
      (fun _ => invariant) broken :=
  Contract.modify fun _ hs => hs

namespace Upheld

variable {env : Environment κ σ} {permitted : Call → Prop} {invariant : System κ σ → Prop}
  (h : Upheld env permitted invariant)

include h

theorem clearInterrupt (controller : κ) (hart : Nat) :
    Keeps invariant (clearInterrupt env controller hart) :=
  Contract.bind (h.clear controller hart) fun _ => contract_note (.cleared hart)

theorem clearPending (hart : Nat) : Keeps invariant (clearPending env hart) := by
  apply Keeps.looking
  intro s _
  cases s.dispatcher.controller with
  | none => exact .value ()
  | some controller => exact h.clearInterrupt controller hart

theorem tryBringUp {hart : Nat} (hpermitted : permitted (.bringUp hart)) :
    Keeps invariant (tryBringUp env hart) := by
  intro s hs
  cases hc : s.dispatcher.controller with
  | none =>
      rw [tryBringUp_of_unregistered hc]
      exact hs
  | some controller =>
      by_cases hlimit : hart < hartLimit
      · rw [tryBringUp_of_registered hc hlimit]
        have hreset := h.resetting hart hs
        cases hrefusal : env.refusal controller hart s.outside with
        | some error => exact hreset
        | none =>
            refine Contract.bind (h.clearInterrupt controller hart) (fun _ => ?_) _ hreset
            exact fun t ht => h.bringingUp hpermitted hc hrefusal hlimit hs ht
      · rw [tryBringUp_of_slotless hc hlimit]
        exact hs

theorem makeAvailable {hart : Nat} (hpermitted : permitted (.makeAvailable hart)) :
    Keeps invariant (makeAvailable hart : Run κ σ Unit) :=
  fun _ hs => h.admitting hart hpermitted hs

theorem makeUnavailable {hart : Nat} (hpermitted : permitted (.makeUnavailable hart)) :
    Keeps invariant (makeUnavailable hart : Run κ σ Unit) :=
  fun _ hs => h.withdrawing hart hpermitted hs

section Nested

variable {others : List Call → Run κ σ Unit}
  (hothers : ∀ calls, (∀ call ∈ calls, permitted call) → Keeps invariant (others calls))

include hothers

theorem post (controller : κ) (origin : Nat) (event : Event) (hart : Nat) :
    Keeps invariant (post env others controller origin event hart) := by
  have hstore : Contract invariant (onDispatcher (·.setSlot hart (some event)) : Run κ σ Unit)
      (fun _ s => invariant (s.noting (.stored origin hart event))) fun _ => invariant :=
    Contract.modify fun _ hs => h.storing origin hart event hs
  refine hstore.bind fun _ => (contract_note _).bind fun _ => ?_
  refine (h.raise controller hart).bind fun calls => Contract.assuming fun hcalls => ?_
  refine (contract_note _).bind fun _ => ?_
  exact (hothers calls hcalls).bind fun _ => h.log _

omit hothers h in
theorem await (hart : Nat) : Keeps invariant (await hart : Run κ σ Unit) := by
  apply Keeps.looking
  intro s _
  split
  · exact .exit _
  · exact .value ()

theorem trySend (origin : Nat) (targets : Option HartSet) (event : Option Event) :
    Keeps invariant (trySend env others origin targets event) := by
  cases event with
  | none => exact .value _
  | some event =>
      refine Keeps.bind (Keeps.looking ?_) fun _ => .value _
      intro s _
      dsimp only
      cases s.dispatcher.controller with
      | none => exact h.log _
      | some controller =>
          apply Keeps.bind
          · exact .forM fun hart _ => h.post hothers controller origin event hart
          · intro _
            split
            · exact .forM fun hart _ => await hart
            · exact .value ()

theorem effect (hart : Nat) (event : Event) :
    Keeps invariant (effect env others hart event) := by
  have hnote : Contract invariant (note (.performed hart event) : Run κ σ Unit)
      (fun _ s => ∃ t, invariant t ∧ s = t.noting (.performed hart event)) fun _ => invariant :=
    Contract.modify fun s hs => ⟨s, hs, rfl⟩
  refine hnote.bind fun _ => (h.perform hart event).bind fun calls => ?_
  exact Contract.assuming (hothers calls)

theorem halt (hart : Nat) : Keeps invariant (do
    Ipi.makeUnavailable hart
    consume hart .halt
    Ipi.effect env others hart .halt : Run κ σ Unit) := by
  have hbegin : Contract invariant (Ipi.makeUnavailable hart : Run κ σ Unit)
      (fun _ s => ∃ t, invariant t ∧ s = t.withdrawing hart) fun _ => invariant :=
    fun s hs => ⟨s, hs, rfl⟩
  refine hbegin.bind fun _ => ?_
  have hconsume : Contract (fun s => ∃ t, invariant t ∧ s = t.withdrawing hart)
      (consume hart .halt : Run κ σ Unit)
      (fun _ s => ∃ t, invariant t ∧ s = (t.withdrawing hart).consuming hart .halt)
      fun _ => invariant := by
    rintro _ ⟨t, ht, rfl⟩
    exact ⟨t, ht, rfl⟩
  refine hconsume.bind fun _ => ?_
  have hnote : Contract
      (fun s => ∃ t, invariant t ∧ s = (t.withdrawing hart).consuming hart .halt)
      (note (.performed hart .halt) : Run κ σ Unit)
      (fun _ s => ∃ t, invariant t ∧
        s = ((t.withdrawing hart).consuming hart .halt).noting (.performed hart .halt))
      fun _ => invariant := by
    rintro _ ⟨t, ht, rfl⟩
    exact ⟨t, ht, rfl⟩
  exact hnote.bind fun _ => (h.park hart).bind fun calls => Contract.assuming (hothers calls)

theorem drain (hart : Nat) : Keeps invariant (drain env others hart) := by
  have hleave (ending : Ending) :
      Keeps invariant (note (.left hart) >>= fun _ => pure ending : Run κ σ Ending) :=
    Keeps.bind (.modifying fun _ hs => h.leaving hart hs) fun _ => .value _
  have hresume (event : Event) : Keeps invariant (Ipi.effect env others hart event >>= fun _ =>
      consume hart event >>= fun _ => note (.left hart) >>= fun _ => pure Ending.resumed) :=
    (h.effect hothers hart event).bind fun _ =>
      Keeps.bind (.modifying fun _ hs => h.consuming hart event hs) fun _ => hleave _
  refine Keeps.bind (.modifying fun _ hs => h.entering hart hs) fun _ => ?_
  refine (h.clearPending hart).bind fun _ => Keeps.looking ?_
  intro s _
  cases s.dispatcher.slots hart with
  | none => exact hleave _
  | some event =>
      cases event with
      | soft => exact hresume .soft
      | fenceI => exact hresume .fenceI
      | sfenceVma => exact hresume .sfenceVma
      | halt => exact (h.halt hothers hart).bind fun _ => hleave .parked

theorem call {made : Call} (hpermitted : permitted made) :
    Keeps invariant (call env others made) := by
  cases made with
  | process hart => exact (h.drain hothers hart).discarding
  | send origin targets event =>
      exact (h.trySend hothers origin targets event).bind fun _ => h.returned _
  | bringUp hart => exact (h.tryBringUp hpermitted).discarding
  | makeAvailable hart => exact h.makeAvailable hpermitted
  | makeUnavailable hart => exact h.makeUnavailable hpermitted

theorem run {made : Call} (hpermitted : permitted made) :
    Keeps invariant (made.run env others) := by
  cases made with
  | process hart =>
      refine (h.drain hothers hart).bind fun ending => ?_
      split
      · exact .exit _
      · exact .value ()
  | send origin targets event => exact (h.trySend hothers origin targets event).bind .answering
  | bringUp hart => exact (h.tryBringUp hpermitted).bind .answering
  | makeAvailable hart => exact h.makeAvailable hpermitted
  | makeUnavailable hart => exact h.makeUnavailable hpermitted

end Nested

theorem carryOut (depth : Nat) {calls : List Call} (hcalls : ∀ call ∈ calls, permitted call) :
    Keeps invariant (carryOut env depth calls) := by
  induction depth generalizing calls with
  | zero =>
      cases calls with
      | nil => exact .value ()
      | cons made calls => exact .exit _
  | succ depth ih => exact .forM fun made hmade => h.call (fun _ => ih) (hcalls made hmade)

end Upheld

theorem MakesCalls.keeps {env : Environment κ σ} {others : List Call → Run κ σ Unit}
    (hothers : MakesCalls env others) {permitted : Call → Prop} {invariant : System κ σ → Prop}
    (h : Upheld env permitted invariant) {calls : List Call}
    (hcalls : ∀ call ∈ calls, permitted call) : Keeps invariant (others calls) := by
  intro s hs
  rcases hothers calls s with ⟨depth, hdepth⟩
  rw [hdepth]
  exact h.carryOut depth hcalls s hs

/-!
# Invariants of single steps

Where nothing is broken in between, each single step keeps an invariant.
-/

/-- Whether an incident leaves open which harts are up. -/
def Incident.isPlain : Incident → Bool
  | .broughtUp _ | .madeAvailable _ | .madeUnavailable _ => false
  | _ => true

structure Invariant (env : Environment κ σ) (permitted : Call → Prop)
    (invariant : System κ σ → Prop) : Prop where
  noting {s : System κ σ} {incident : Incident} :
    incident.isPlain = true → invariant s → invariant (s.noting incident)
  filling {s : System κ σ} (hart : Nat) (content : Option Event) :
    invariant s → invariant (s.changing (·.setSlot hart content))
  withdrawing {s : System κ σ} (hart : Nat) : invariant s → invariant (s.withdrawing hart)
  admitting {s : System κ σ} (hart : Nat) :
    permitted (.makeAvailable hart) → invariant s → invariant (s.admitting hart)
  bringingUp {s t : System κ σ} {controller : κ} {hart : Nat} :
    s.dispatcher.controller = some controller → env.refusal controller hart s.outside = none →
      hart < hartLimit → invariant s → invariant t → invariant (t.bringingUp hart)
  raise (controller : κ) (hart : Nat) :
    Contract invariant (onOutside (env.raise controller hart))
    (fun calls s => invariant s ∧ ∀ call ∈ calls, permitted call) fun _ => invariant
  clear (controller : κ) (hart : Nat) : Keeps invariant (onOutside (env.clear controller hart))
  perform (hart : Nat) (event : Event) : Contract invariant (onOutside (env.perform hart event))
    (fun calls s => invariant s ∧ ∀ call ∈ calls, permitted call) fun _ => invariant
  returned (answer : Except Error Unit) : Keeps invariant (onOutside (env.returned answer))
  log (record : LogRecord) : Keeps invariant (onOutside (env.log record))

namespace Invariant

variable {env : Environment κ σ} {permitted : Call → Prop} {invariant : System κ σ → Prop}
  (h : Invariant env permitted invariant)

include h

theorem consuming {s : System κ σ} (hart : Nat) (seen : Event) (hs : invariant s) :
    invariant (s.consuming hart seen) := by
  change invariant { s with dispatcher := s.dispatcher.consumed hart seen }
  unfold Dispatcher.consumed
  split
  · exact h.filling hart none hs
  · exact hs

theorem note {incident : Incident} (hplain : incident.isPlain = true) :
    Keeps invariant (note incident : Run κ σ Unit) :=
  .modifying fun _ hs => h.noting hplain hs

theorem consume (hart : Nat) (seen : Event) :
    Keeps invariant (consume hart seen : Run κ σ Unit) :=
  .modifying fun _ hs => h.consuming hart seen hs

theorem upheld : Upheld env permitted invariant where
  entering _ hs := h.noting rfl hs
  leaving _ hs := h.noting rfl hs
  storing _ hart event hs := h.noting rfl (h.filling hart (some event) hs)
  resetting hart hs := h.noting rfl (h.filling hart none hs)
  consuming hart seen hs := h.consuming hart seen hs
  admitting hart hpermitted hs := h.admitting hart hpermitted hs
  withdrawing hart _ hs := h.withdrawing hart hs
  bringingUp _ hcontroller hrefusal hlimit hs ht :=
    h.bringingUp hcontroller hrefusal hlimit hs ht
  raise controller hart :=
    (h.raise controller hart).weaken (fun _ hs => hs) (fun _ _ hs => ⟨h.noting rfl hs.1, hs.2⟩)
      fun _ _ hs => hs
  clear controller hart :=
    Contract.weaken (h.clear controller hart) (fun _ hs => hs) (fun _ _ hs => h.noting rfl hs)
      fun _ _ hs => hs
  perform hart event := by
    refine (h.perform hart event).weaken ?_ (fun _ _ hs => hs) fun _ _ hs => hs
    rintro _ ⟨t, ht, rfl⟩
    exact h.noting rfl ht
  park hart := by
    refine (h.perform hart .halt).weaken ?_ (fun _ _ hs => hs) fun _ _ hs => hs
    rintro _ ⟨t, ht, rfl⟩
    exact h.noting rfl (h.consuming hart .halt (h.withdrawing hart ht))
  returned answer := h.returned answer
  log record := h.log record

end Invariant

/-!
# What the history decides

Nothing is taken out of a history again.
-/

section History

variable {invariant : System κ σ → Prop}
  (hhistory : ∀ s t : System κ σ, t.history = s.history → invariant s → invariant t)

include hhistory

theorem keeps_onOutside_of_history {α : Type} (step : EStateM Exit σ α) :
    Keeps invariant (onOutside step : Run κ σ α) := by
  apply keeps_onOutside_of_within
  intro s outside hs
  cases step outside with
  | ok value left => exact hhistory (s.within outside) (s.within left) rfl hs
  | error exit left => exact hhistory (s.within outside) (s.within left) rfl hs

/-- What depends on the history alone, and stays when incidents are added,
is kept by everything. -/
theorem invariant_of_history (env : Environment κ σ)
    (hnoting : ∀ s incident, invariant s → invariant (s.noting incident)) :
    Invariant env (fun _ => True) invariant := by
  have houtside {α : Type} (step : EStateM Exit σ α) :
      Keeps invariant (onOutside step : Run κ σ α) := keeps_onOutside_of_history hhistory step
  have hcalling (step : EStateM Exit σ (List Call)) :
      Contract invariant (onOutside step : Run κ σ (List Call))
        (fun calls s => invariant s ∧ ∀ call ∈ calls, True) fun _ => invariant :=
    (houtside step).weaken (fun _ hs => hs) (fun _ _ hs => ⟨hs, fun _ _ => trivial⟩)
      fun _ _ hs => hs
  have hadmitting (s : System κ σ) (hart : Nat) (hs : invariant s) :
      invariant (s.admitting hart) := hnoting _ _ (hhistory s _ rfl hs)
  exact {
    noting := fun {s incident} _ hs => hnoting s incident hs
    filling := fun {s} _ _ hs => hhistory s _ rfl hs
    withdrawing := fun {s} _ hs => hnoting _ _ (hhistory s _ rfl hs)
    admitting := fun {s} hart _ hs => hadmitting s hart hs
    bringingUp := fun {_ t _ hart} _ _ _ _ ht => hnoting _ _ (hadmitting t hart ht)
    raise := fun _ _ => hcalling _
    clear := fun _ _ => houtside _
    perform := fun _ _ => hcalling _
    returned := fun _ => houtside _
    log := fun _ => houtside _ }

end History
end Ipi
end Interhart
