import Interhart.Proofs.Ipi.Requests
import Interhart.Proofs.Ipi.Stores

/-!
# Accounts of stores and effects

What a hart carries out was stored for it, and a store is carried out once at most.  This
is so at every moment of a run, calls under way and calls that broke off included, for a
hart that does not begin to process its slot while it is still processing it.
-/

namespace Interhart
namespace Ipi

variable {κ σ : Type}

/-!
# Accounts of a system

A hart that has carried an event out finds it in its slot still, until it empties the slot.
Such events are written down, one for each processing that the hart has not finished; a
processing that has nothing to take out any more, or has not looked yet, is written down
without an event.
-/

structure Accounted (hart : Nat) (unfinished : List (Option Event)) (s : System κ σ) :
    Prop where
  sound : ¬Reentered hart s.history → Sound hart s.history
  slot : ∀ event, s.dispatcher.slots hart = some event →
    standing hart s.history = some event ∨ some event ∈ unfinished
  depth : unfinished.length ≤ inside hart s.history
  alone : ¬Reentered hart s.history → unfinished.length ≤ 1

def opened (hart target : Nat) (found : Option Event) (unfinished : List (Option Event)) :
    List (Option Event) :=
  if target = hart then found :: unfinished else unfinished

namespace Accounted

variable {hart : Nat} {unfinished : List (Option Event)} {s : System κ σ}

theorem fresh (outside : σ) : Accounted hart [] ({ outside := outside } : System κ σ) :=
  ⟨fun _ => trivial, nofun, Nat.le_refl 0, fun _ => Nat.zero_le 1⟩

theorem of_dispatcher (h : Accounted hart unfinished s) {t : System κ σ}
    (hhistory : t.history = s.history)
    (hslot : t.dispatcher.slots hart = s.dispatcher.slots hart) :
    Accounted hart unfinished t := by
  constructor
  · rw [hhistory]
    exact h.sound
  · rw [hhistory, hslot]
    exact h.slot
  · rw [hhistory]
    exact h.depth
  · rw [hhistory]
    exact h.alone

theorem within (h : Accounted hart unfinished s) (outside : σ) :
    Accounted hart unfinished (s.within outside) := h.of_dispatcher rfl rfl

theorem noting (h : Accounted hart unfinished s) (incident : Incident)
    (hleaves : incident.leaves hart = none) (hentered : incident ≠ .entered hart)
    (hleft : incident ≠ .left hart) : Accounted hart unfinished (s.noting incident) := by
  have hreentered : Reentered hart (incident :: s.history) ↔ Reentered hart s.history :=
    reentered_cons_iff_of_ne hentered
  constructor
  · rw [System.history_noting, hreentered]
    refine fun halone => ⟨?_, h.sound halone⟩
    rintro event rfl
    rw [leaves_performed] at hleaves
    cases hleaves
  · rw [System.history_noting, standing_cons_of_none hleaves]
    exact h.slot
  · rw [System.history_noting, inside_cons_of_ne hentered hleft]
    exact h.depth
  · rw [System.history_noting, hreentered]
    exact h.alone

theorem putting (h : Accounted hart unfinished s) {target : Nat} {content : Option Event}
    {incident : Incident}
    (hputs : incident.puts hart = if target = hart then some content else none)
    (hentered : incident ≠ .entered hart) (hleft : incident ≠ .left hart)
    (hperformed : ∀ event, incident ≠ .performed hart event) :
    Accounted hart unfinished ((s.changing (·.setSlot target content)).noting incident) := by
  by_cases htarget : target = hart
  · subst htarget
    rw [if_pos rfl] at hputs
    have hreentered : Reentered target (incident :: s.history) ↔ Reentered target s.history :=
      reentered_cons_iff_of_ne hentered
    constructor
    · rw [System.history_noting, System.history_changing, hreentered]
      exact fun halone => ⟨fun event hevent => absurd hevent (hperformed event), h.sound halone⟩
    · intro event hevent
      refine Or.inl ?_
      rw [System.history_noting, standing_cons_of_leaves (leaves_of_puts hputs)]
      exact (Dispatcher.slots_setSlot_self s.dispatcher target content).symm.trans hevent
    · rw [System.history_noting, inside_cons_of_ne hentered hleft]
      exact h.depth
    · rw [System.history_noting, System.history_changing, hreentered]
      exact h.alone
  · rw [if_neg htarget] at hputs
    have hleaves : incident.leaves hart = none := by
      rcases leaves_of_not_puts hputs with ⟨hleaves, -⟩ | ⟨event, hevent⟩
      · exact hleaves
      · exact absurd hevent (hperformed event)
    have hsame : Accounted hart unfinished (s.changing (·.setSlot target content)) :=
      h.of_dispatcher rfl (Dispatcher.slots_setSlot_of_ne _ _ (Ne.symm htarget))
    exact hsame.noting incident hleaves hentered hleft

theorem storing (h : Accounted hart unfinished s) (origin target : Nat) (event : Event) :
    Accounted hart unfinished (s.storing origin target event) := h.putting rfl nofun nofun nofun

theorem resetting (h : Accounted hart unfinished s) (target : Nat) :
    Accounted hart unfinished (s.resetting target) := h.putting rfl nofun nofun nofun

theorem admitting (h : Accounted hart unfinished s) (target : Nat) :
    Accounted hart unfinished (s.admitting target) := by
  have hsame : Accounted hart unfinished
      (s.changing fun d => { d with available := d.available.insert target }) :=
    h.of_dispatcher rfl rfl
  exact hsame.noting (.madeAvailable target) rfl nofun nofun

theorem withdrawing (h : Accounted hart unfinished s) (target : Nat) :
    Accounted hart unfinished (s.withdrawing target) := by
  have hsame : Accounted hart unfinished
      (s.changing fun d => { d with available := d.available.erase target }) :=
    h.of_dispatcher rfl rfl
  exact hsame.noting (.madeUnavailable target) rfl nofun nofun

theorem entering (h : Accounted hart unfinished s) (target : Nat) :
    Accounted hart (opened hart target none unfinished) (s.noting (.entered target)) := by
  unfold opened
  by_cases htarget : target = hart
  · subst htarget
    have hinside : inside target (.entered target :: s.history) = inside target s.history + 1 :=
      if_pos rfl
    rw [if_pos rfl]
    constructor
    · intro halone
      exact ⟨nofun, h.sound fun hreentered => halone (Or.inr hreentered)⟩
    · intro event hevent
      rcases h.slot event hevent with hstanding | hmem
      · exact Or.inl hstanding
      · exact Or.inr (List.mem_cons_of_mem none hmem)
    · rw [System.history_noting, hinside]
      exact Nat.succ_le_succ h.depth
    · intro halone
      have houtside : inside target s.history = 0 :=
        Nat.eq_zero_of_not_pos fun hpos => halone (Or.inl ⟨rfl, hpos⟩)
      have hdepth := h.depth
      simp only [List.length_cons]
      omega
  · rw [if_neg htarget]
    refine h.noting _ rfl ?_ nofun
    rintro ⟨⟩
    exact htarget rfl

theorem leaving {target : Nat} (h : Accounted hart (opened hart target none unfinished) s) :
    Accounted hart unfinished (s.noting (.left target)) := by
  unfold opened at h
  by_cases htarget : target = hart
  · subst htarget
    rw [if_pos rfl] at h
    have hinside : inside target (.left target :: s.history) = inside target s.history - 1 :=
      if_pos rfl
    have hreentered : Reentered target (.left target :: s.history) ↔
        Reentered target s.history :=
      reentered_cons_iff_of_ne nofun
    constructor
    · rw [System.history_noting, hreentered]
      exact fun halone => ⟨nofun, h.sound halone⟩
    · intro event hevent
      rcases h.slot event hevent with hstanding | hmem
      · exact Or.inl hstanding
      · exact Or.inr (List.mem_of_ne_of_mem (Option.some_ne_none event) hmem)
    · have hdepth := h.depth
      simp only [List.length_cons] at hdepth
      rw [System.history_noting, hinside]
      omega
    · rw [System.history_noting, hreentered]
      intro halone
      have hlength := h.alone halone
      simp only [List.length_cons] at hlength
      omega
  · rw [if_neg htarget] at h
    refine h.noting _ rfl nofun ?_
    rintro ⟨⟩
    exact htarget rfl

theorem performing {target : Nat} {event : Event}
    (h : Accounted hart (opened hart target none unfinished) s)
    (hfull : s.dispatcher.slots target = some event) :
    Accounted hart (opened hart target (some event) unfinished)
      (s.noting (.performed target event)) := by
  unfold opened at h ⊢
  by_cases htarget : target = hart
  · subst htarget
    rw [if_pos rfl] at h ⊢
    have hreentered : Reentered target (.performed target event :: s.history) ↔
        Reentered target s.history :=
      reentered_cons_iff_of_ne nofun
    constructor
    · rw [System.history_noting, hreentered]
      intro halone
      refine ⟨?_, h.sound halone⟩
      rintro found ⟨⟩
      rcases h.slot event hfull with hstanding | hmem
      · exact hstanding
      · -- Only this processing is unfinished, and it has not taken anything out yet.
        have hlength := h.alone halone
        have hnone : unfinished = [] := by simpa using hlength
        rw [hnone] at hmem
        exact absurd hmem (by simp)
    · intro found hfound
      change s.dispatcher.slots target = some found at hfound
      rw [hfull] at hfound
      rw [hfound]
      exact Or.inr List.mem_cons_self
    · exact h.depth
    · rw [System.history_noting, hreentered]
      exact h.alone
  · rw [if_neg htarget] at h ⊢
    exact h.noting _ (if_neg htarget) nofun nofun

theorem consuming {target : Nat} {event : Event}
    (h : Accounted hart (opened hart target (some event) unfinished) s) :
    Accounted hart (opened hart target none unfinished) (s.consuming target event) := by
  unfold opened at h ⊢
  by_cases htarget : target = hart
  · subst htarget
    rw [if_pos rfl] at h ⊢
    refine ⟨h.sound, ?_, h.depth, h.alone⟩
    intro found hfound
    change (s.dispatcher.consumed target event).slots target = some found at hfound
    rw [Dispatcher.slots_consumed_self] at hfound
    by_cases hsame : s.dispatcher.slots target = some event
    · rw [if_pos hsame] at hfound
      cases hfound
    · rw [if_neg hsame] at hfound
      rcases h.slot found hfound with hstanding | hmem
      · exact Or.inl hstanding
      · have hne : some found ≠ some event := fun heq => hsame (hfound.trans heq)
        exact Or.inr (List.mem_cons_of_mem none (List.mem_of_ne_of_mem hne hmem))
  · rw [if_neg htarget] at h ⊢
    exact h.of_dispatcher rfl (Dispatcher.slots_consumed_of_ne _ _ (Ne.symm htarget))

end Accounted

/-!
# Operations keep the accounts

An operation that ends leaves as many processings unfinished as there were when it began.  One
that breaks off may leave more of them.
-/

def Accountable (hart : Nat) (s : System κ σ) : Prop :=
  ∃ unfinished, Accounted hart unfinished s

def KeepsAccounts (hart : Nat) {α : Type} (operation : Run κ σ α) : Prop :=
  ∀ unfinished, Contract (Accounted hart unfinished) operation
    (fun _ => Accounted hart unfinished) fun _ => Accountable hart

namespace KeepsAccounts

variable {hart : Nat} {α β : Type}

theorem value (value : α) : KeepsAccounts hart (pure value : Run κ σ α) :=
  fun _ => Contract.value fun _ h => h

theorem exit (exit : Exit) : KeepsAccounts hart (throw exit : Run κ σ α) :=
  fun unfinished => Contract.exit fun _ h => ⟨unfinished, h⟩

theorem bind {first : Run κ σ α} {rest : α → Run κ σ β} (hfirst : KeepsAccounts hart first)
    (hrest : ∀ value, KeepsAccounts hart (rest value)) : KeepsAccounts hart (first >>= rest) :=
  fun unfinished => (hfirst unfinished).bind fun value => hrest value unfinished

theorem discarding {operation : Run κ σ α} (h : KeepsAccounts hart operation) :
    KeepsAccounts hart (discard operation) := fun unfinished => (h unfinished).discard

theorem looking {rest : System κ σ → Run κ σ α} (h : ∀ s, KeepsAccounts hart (rest s)) :
    KeepsAccounts hart (get >>= rest) := by
  intro unfinished
  apply Contract.get_bind
  rintro s hs _ rfl
  exact h _ unfinished _ hs

theorem onOutside (step : EStateM Exit σ α) :
    KeepsAccounts hart (onOutside step : Run κ σ α) := by
  intro unfinished s hs
  cases hstep : step s.outside with
  | ok value outside =>
      rw [onOutside_of_ok hstep]
      exact hs.within outside
  | error exit outside =>
      rw [onOutside_of_error hstep]
      exact ⟨unfinished, hs.within outside⟩

theorem noting (incident : Incident) (hleaves : incident.leaves hart = none)
    (hentered : incident ≠ .entered hart) (hleft : incident ≠ .left hart) :
    KeepsAccounts hart (note incident : Run κ σ Unit) :=
  fun _ => Contract.modify fun _ h => h.noting incident hleaves hentered hleft

theorem changing {change : Dispatcher κ → Dispatcher κ} {incident : Incident}
    {rest : Unit → Run κ σ α}
    (h : ∀ unfinished (s : System κ σ), Accounted hart unfinished s →
      Accounted hart unfinished ((s.changing change).noting incident))
    (hrest : ∀ value, KeepsAccounts hart (rest value)) :
    KeepsAccounts hart (onDispatcher change >>= fun _ => note incident >>= rest) := by
  intro unfinished
  have hchange : Contract (Accounted hart unfinished) (onDispatcher change : Run κ σ Unit)
      (fun _ s => Accounted hart unfinished (s.noting incident)) fun _ => Accountable hart :=
    Contract.modify fun s => h unfinished s
  have hnote : Contract (fun s => Accounted hart unfinished (s.noting incident))
      (note incident : Run κ σ Unit) (fun _ => Accounted hart unfinished)
      fun _ => Accountable hart :=
    Contract.modify fun s hs => hs
  exact hchange.bind fun _ => hnote.bind fun value => hrest value unfinished

theorem forM {γ : Type} {step : γ → Run κ σ Unit} {items : List γ}
    (h : ∀ item, KeepsAccounts hart (step item)) : KeepsAccounts hart (items.forM step) :=
  fun unfinished => Contract.forM fun item _ => h item unfinished

theorem answering (answer : Except Error α) :
    KeepsAccounts hart (orRefuse answer : Run κ σ α) := by
  cases answer with
  | ok found => exact value found
  | error error => exact exit _

end KeepsAccounts

section Operations

variable {hart : Nat}

theorem keepsAccounts_makeAvailable (target : Nat) :
    KeepsAccounts hart (makeAvailable target : Run κ σ Unit) :=
  KeepsAccounts.changing (fun _ _ h => h.admitting target) .value

theorem keepsAccounts_makeUnavailable (target : Nat) :
    KeepsAccounts hart (makeUnavailable target : Run κ σ Unit) :=
  KeepsAccounts.changing (fun _ _ h => h.withdrawing target) .value

variable (env : Environment κ σ)

theorem keepsAccounts_clearInterrupt (controller : κ) (target : Nat) :
    KeepsAccounts hart (clearInterrupt env controller target) :=
  (KeepsAccounts.onOutside _).bind fun _ => .noting (.cleared target) rfl nofun nofun

theorem keepsAccounts_tryBringUp (target : Nat) :
    KeepsAccounts hart (tryBringUp env target) := by
  apply KeepsAccounts.looking
  intro s
  cases s.dispatcher.controller with
  | none => exact .value _
  | some controller =>
      by_cases hlimit : target < hartLimit
      · simp only [if_pos hlimit]
        apply KeepsAccounts.changing fun _ _ h => h.resetting target
        intro _
        apply KeepsAccounts.looking
        intro s
        cases env.refusal controller target s.outside with
        | some error => exact .value _
        | none =>
            apply KeepsAccounts.bind (keepsAccounts_clearInterrupt env controller target)
            intro _
            apply KeepsAccounts.bind (keepsAccounts_makeAvailable target)
            intro _
            exact KeepsAccounts.bind (.noting (.broughtUp target) rfl nofun nofun)
              fun _ => .value _
      · simp only [if_neg hlimit]
        exact .value _

theorem keepsAccounts_register [DecidableEq κ] (controller : κ) :
    KeepsAccounts hart (register env controller) := by
  apply KeepsAccounts.looking
  intro s
  have hset : ∀ present : κ, KeepsAccounts hart
      (onDispatcher fun d => { d with controller := some present } : Run κ σ Unit) :=
    fun present _ => Contract.modify fun _ h => h.of_dispatcher rfl rfl
  apply KeepsAccounts.bind (hset _)
  intro _
  split
  · exact .onOutside _
  · exact .onOutside _

variable {others : List Call → Run κ σ Unit}
  (hothers : ∀ calls, KeepsAccounts hart (others calls))

include hothers

theorem keepsAccounts_post (controller : κ) (origin : Nat) (event : Event) (target : Nat) :
    KeepsAccounts hart (post env others controller origin event target) := by
  apply KeepsAccounts.changing fun _ _ h => h.storing origin target event
  intro _
  apply KeepsAccounts.bind (.onOutside _)
  intro calls
  apply KeepsAccounts.bind (.noting (.raised target) rfl nofun nofun)
  intro _
  exact (hothers calls).bind fun _ => .onOutside _

omit hothers in
theorem keepsAccounts_await (target : Nat) :
    KeepsAccounts hart (await target : Run κ σ Unit) := by
  apply KeepsAccounts.looking
  intro s
  split
  · exact .exit _
  · exact .value ()

theorem keepsAccounts_trySend (origin : Nat) (targets : Option HartSet) (event : Option Event) :
    KeepsAccounts hart (trySend env others origin targets event) := by
  cases event with
  | none => exact .value _
  | some event =>
      refine KeepsAccounts.bind (KeepsAccounts.looking ?_) fun _ => .value _
      intro s
      dsimp only
      cases s.dispatcher.controller with
      | none => exact .onOutside _
      | some controller =>
          apply KeepsAccounts.bind
          · exact .forM fun target => keepsAccounts_post env hothers controller origin
              event target
          · intro _
            split
            · exact .forM keepsAccounts_await
            · exact .value ()

omit hothers in
theorem keepsAccounts_clearPending (target : Nat) :
    KeepsAccounts hart (clearPending env target) := by
  apply KeepsAccounts.looking
  intro s
  cases s.dispatcher.controller with
  | none => exact .value ()
  | some controller => exact keepsAccounts_clearInterrupt env controller target

theorem contract_effect (unfinished : List (Option Event)) (target : Nat) (event : Event) :
    Contract (fun s => Accounted hart unfinished (s.noting (.performed target event)))
      (effect env others target event) (fun _ => Accounted hart unfinished)
      fun _ => Accountable hart := by
  have hnote : Contract
      (fun s => Accounted hart unfinished (s.noting (.performed target event)))
      (note (.performed target event) : Run κ σ Unit) (fun _ => Accounted hart unfinished)
      fun _ => Accountable hart := Contract.modify fun _ h => h
  have hcalls : KeepsAccounts hart
      (Ipi.onOutside (env.perform target event) >>= others) :=
        (KeepsAccounts.onOutside _).bind hothers
  exact hnote.bind fun _ => hcalls unfinished

theorem keepsAccounts_drain (target : Nat) : KeepsAccounts hart (drain env others target) := by
  intro unfinished
  have henter : Contract (Accounted hart unfinished) (note (.entered target) : Run κ σ Unit)
      (fun _ => Accounted hart (opened hart target none unfinished)) fun _ =>
        Accountable hart :=
    Contract.modify fun _ h => h.entering target
  have hleave : ∀ ending : Ending,
      Contract (Accounted hart (opened hart target none unfinished))
        (note (.left target) >>= fun _ => pure ending : Run κ σ Ending)
        (fun _ => Accounted hart unfinished) fun _ => Accountable hart :=
    fun ending => (Contract.modify fun _ h => h.leaving).bind fun _ =>
      Contract.value fun _ h => h
  refine henter.bind fun _ => ((keepsAccounts_clearPending env target) _).bind fun _ => ?_
  apply Contract.get_bind
  intro s hs
  cases hslot : s.dispatcher.slots target with
  | none =>
      rintro _ rfl
      exact hleave .resumed _ hs
  | some event =>
      by_cases hhalt : event = .halt
      · subst hhalt
        have hwithdraw : Contract (· = s) (makeUnavailable target : Run κ σ Unit)
            (fun _ t => t = s.withdrawing target) fun _ => Accountable hart := by
          rintro _ rfl
          rfl
        -- The slot is emptied before the hart parks, so there is nothing left to take out.
        have hconsume : Contract (· = s.withdrawing target)
            (consume target .halt : Run κ σ Unit)
            (fun _ t => Accounted hart (opened hart target none unfinished)
              (t.noting (.performed target .halt))) fun _ => Accountable hart := by
          rintro _ rfl
          exact ((hs.withdrawing target).performing hslot).consuming
        exact hwithdraw.bind fun _ => hconsume.bind fun _ =>
          (contract_effect env hothers _ target .halt).bind fun _ => hleave .parked
      · have heffect : Contract (· = s) (effect env others target event)
            (fun _ => Accounted hart (opened hart target (some event) unfinished))
            fun _ => Accountable hart := by
          rintro _ rfl
          exact contract_effect env hothers _ target event _ (hs.performing hslot)
        have hconsume : Contract (Accounted hart (opened hart target (some event) unfinished))
            (consume target event : Run κ σ Unit)
            (fun _ => Accounted hart (opened hart target none unfinished))
            fun _ => Accountable hart := Contract.modify fun _ h => h.consuming
        have hrest := heffect.bind fun _ => hconsume.bind fun _ => hleave .resumed
        cases event with
        | halt => exact absurd rfl hhalt
        | soft => exact hrest
        | fenceI => exact hrest
        | sfenceVma => exact hrest

theorem keepsAccounts_call (made : Call) : KeepsAccounts hart (call env others made) := by
  cases made with
  | process target => exact (keepsAccounts_drain env hothers target).discarding
  | send origin targets event =>
      exact (keepsAccounts_trySend env hothers origin targets event).bind fun _ => .onOutside _
  | bringUp target => exact (keepsAccounts_tryBringUp env target).discarding
  | makeAvailable target => exact keepsAccounts_makeAvailable target
  | makeUnavailable target => exact keepsAccounts_makeUnavailable target

end Operations

theorem keepsAccounts_carryOut (hart : Nat) (env : Environment κ σ) (depth : Nat)
    (calls : List Call) : KeepsAccounts hart (carryOut env depth calls) := by
  induction depth generalizing calls with
  | zero =>
      cases calls with
      | nil => exact .value ()
      | cons made calls => exact .exit _
  | succ depth ih => exact .forM (keepsAccounts_call env ih)

theorem MakesCalls.keepsAccounts {env : Environment κ σ} {others : List Call → Run κ σ Unit}
    (hothers : MakesCalls env others) (hart : Nat) (calls : List Call) :
    KeepsAccounts hart (others calls) := by
  intro unfinished s hs
  rcases hothers calls s with ⟨depth, hdepth⟩
  rw [hdepth]
  exact keepsAccounts_carryOut hart env depth calls unfinished s hs

/-!
# Moments of a run
-/

/-- A state that a run from a fresh dispatcher comes to: between two operations, or where
one has broken off.  As an environment may break off at any of its steps, this includes
what the run is like while calls are under way.  Between the operations the surroundings
may change at will. -/
inductive Moment [DecidableEq κ] (env : Environment κ σ) (others : List Call → Run κ σ Unit) :
    System κ σ → Prop
  | fresh (outside : σ) : Moment env others { outside := outside }
  | elsewhere {s} (before : Moment env others s) (outside : σ) :
    Moment env others (s.within outside)
  | registered {s} (before : Moment env others s) (controller : κ) :
      Moment env others (finalState (register env controller) s)
  | broughtUp {s} (before : Moment env others s) (hart : Nat) :
      Moment env others (finalState (bringUp env hart) s)
  | madeAvailable {s} (before : Moment env others s) (hart : Nat) :
      Moment env others (finalState (makeAvailable hart) s)
  | madeUnavailable {s} (before : Moment env others s) (hart : Nat) :
      Moment env others (finalState (makeUnavailable hart) s)
  | sent {s} (before : Moment env others s) (origin : Nat) (targets : Option HartSet)
      (event : Option Event) :
      Moment env others (finalState (send env others origin targets event) s)
  | processed {s} (before : Moment env others s) (hart : Nat) :
      Moment env others (finalState (process env others hart) s)

theorem KeepsAccounts.accountable {hart : Nat} {operation : Run κ σ Unit}
    (hkeeps : KeepsAccounts hart operation) {s : System κ σ} (h : Accountable hart s) :
    Accountable hart (finalState operation s) := by
  rcases h with ⟨unfinished, hs⟩
  have hends : Contract (Accounted hart unfinished) operation (fun _ => Accountable hart)
      fun _ => Accountable hart :=
    (hkeeps unfinished).weaken (fun _ h => h) (fun _ _ h => ⟨unfinished, h⟩) fun _ _ h => h
  exact hends.finalState hs

theorem Moment.accountable [DecidableEq κ] {env : Environment κ σ}
    {others : List Call → Run κ σ Unit} (hothers : MakesCalls env others) {s : System κ σ}
    (h : Moment env others s) (hart : Nat) : Accountable hart s := by
  have hcalls := hothers.keepsAccounts hart
  induction h with
  | fresh outside => exact ⟨[], .fresh outside⟩
  | elsewhere _ outside ih =>
      rcases ih with ⟨unfinished, hs⟩
      exact ⟨unfinished, hs.within outside⟩
  | registered _ controller ih => exact (keepsAccounts_register env controller).accountable ih
  | broughtUp _ target ih =>
      exact ((keepsAccounts_tryBringUp env target).bind .answering).accountable ih
  | madeAvailable _ target ih => exact (keepsAccounts_makeAvailable target).accountable ih
  | madeUnavailable _ target ih => exact (keepsAccounts_makeUnavailable target).accountable ih
  | sent _ origin targets event ih =>
      have hsend := keepsAccounts_trySend env hcalls origin targets event
      exact (hsend.bind .answering).accountable ih
  | processed _ target ih =>
      have hprocess : KeepsAccounts hart (process env others target) := by
        refine (keepsAccounts_drain env hcalls target).bind fun ending => ?_
        split
        · exact .exit _
        · exact .value ()
      exact hprocess.accountable ih

/-- At every moment, if a hart has not begun to process its slot while it was still
processing it: each event that it has carried out was the last one put into its slot, each
store has been carried out at most once, and each event at most as often as it was stored.
And whatever call comes next, the history tells of just those effects that the surroundings
have been asked for. -/
theorem performed_at_most_as_stored [DecidableEq κ] {env : Environment κ σ}
    {others : List Call → Run κ σ Unit} (hothers : MakesCalls env others) {s : System κ σ}
    (hmoment : Moment env others s) {hart : Nat} (halone : ¬Reentered hart s.history) :
    (∀ event earlier, .performed hart event :: earlier <:+ s.history →
      ∃ origin before, latestPut hart earlier = .stored origin hart event :: before) ∧
    (∀ event event' earlier earlier', .performed hart event :: earlier <:+ s.history →
      .performed hart event' :: earlier' <:+ s.history →
      latestPut hart earlier = latestPut hart earlier' → earlier = earlier') ∧
    (∀ event past, past <:+ s.history → past.count (.performed hart event) ≤
      past.countP fun incident => incident.puts hart = some (some event)) ∧
    ∀ asked : σ → List Request, KeepsLog env asked → ∀ made : Call,
      Tallies asked s (finalState (made.run env others) s) := by
  rcases hmoment.accountable hothers hart with ⟨_, haccounted⟩
  have hsound := haccounted.sound halone
  refine ⟨?_, ?_, ?_, fun _ hlog made => hlog.tallies hothers made s⟩
  · intro event earlier hperformed
    exact latestPut_of_standing (hsound.standing_eq hperformed)
  · intro event event' earlier earlier' hfirst hsecond hput
    exact hsound.eq_of_latestPut_eq hfirst hsecond hput
  · intro event past hpast
    have hcount := (hsound.of_suffix hpast).count_le event
    omega

/-!
# Effects that cause other effects

Hart 0 sends a `fenceI` to the harts 1 and 2, which look into their slots at once.  Hart 2
sends a `soft` to hart 1 while it carries its event out, so hart 1 carries out one event of
each kind.
-/

def relayingBench : Bench where
  script :=
    { atHart := fun hart => if hart = 1 then [1] else if hart = 2 then [2] else []
      reactions := [⟨2, .fenceI, [.send 2 (some (.single 1)) (some .soft)]⟩] }

def readyMachine : Machine :=
  finalState (Machine.bringUpIpi 2) (finalState (Machine.bringUpIpi 1)
    (finalState (Machine.registerController (.scripted 0)) { outside := relayingBench }))

def relayedMachine : Machine := finalState (Machine.send 0 none (some .fenceI)) readyMachine

theorem moment_relayedMachine : Moment Bench.environment Machine.handle relayedMachine := by
  have hfresh : Moment Bench.environment Machine.handle { outside := relayingBench } :=
    .fresh relayingBench
  have hready : Moment Bench.environment Machine.handle readyMachine :=
    ((hfresh.registered (.scripted 0)).broughtUp 1).broughtUp 2
  exact hready.sent 0 none (some .fenceI)

theorem performed_at_most_as_stored_relayedMachine :
    ¬Reentered 1 relayedMachine.history ∧
    (relayedMachine.history.count (.performed 1 .fenceI) = 1 ∧
      relayedMachine.history.count (.performed 1 .soft) = 1) ∧
    (∀ event earlier, .performed 1 event :: earlier <:+ relayedMachine.history →
      ∃ origin before, latestPut 1 earlier = .stored origin 1 event :: before) ∧
    (∀ event event' earlier earlier', .performed 1 event :: earlier <:+ relayedMachine.history →
      .performed 1 event' :: earlier' <:+ relayedMachine.history →
      latestPut 1 earlier = latestPut 1 earlier' → earlier = earlier') ∧
    (∀ event past, past <:+ relayedMachine.history → past.count (.performed 1 event) ≤
      past.countP fun incident => incident.puts 1 = some (some event)) := by
  have halone : ¬Reentered 1 relayedMachine.history := by decide +kernel
  rcases performed_at_most_as_stored makesCalls_handle moment_relayedMachine halone with
    ⟨hstored, honce, hcount, -⟩
  exact ⟨halone, by decide +kernel, hstored, honce, hcount⟩

end Ipi
end Interhart
