import Interhart.Proofs.Ipi.History
import Interhart.Proofs.Ipi.Requests

/-!
# The fan-out of a lone send

While one send is all that goes on, and other harts do nothing but process their slots when
they are interrupted, a synchronous send interrupts each hart it reaches once, and each of
them carries the event out once.  It does not matter which harts process their slots when,
or how often.
-/

namespace Interhart
namespace Ipi

variable {κ σ : Type}

def Processing (calls : List Call) : Prop := ∀ made ∈ calls, ∃ hart, made = .process hart

theorem processing_map (harts : List Nat) : Processing (harts.map .process) := by
  intro made hmade
  rcases List.mem_map.mp hmade with ⟨hart, -, rfl⟩
  exact ⟨hart, rfl⟩

/-- Surroundings in which harts do nothing but process their slots, and only when a
hart has been interrupted. -/
structure OnlyProcesses (env : Environment κ σ) : Prop where
  raise {controller : κ} {hart : Nat} {outside outside' : σ} {calls : List Call} :
    env.raise controller hart outside = .ok calls outside' → Processing calls
  perform {hart : Nat} {event : Event} {outside outside' : σ} {calls : List Call} :
    env.perform hart event outside = .ok calls outside' → calls = []

def raisedHarts : List Incident → List Nat
  | [] => []
  | .raised hart :: earlier => raisedHarts earlier ++ [hart]
  | _ :: earlier => raisedHarts earlier

theorem raisedHarts_append (later earlier : List Incident) :
    raisedHarts (later ++ earlier) = raisedHarts earlier ++ raisedHarts later := by
  induction later with
  | nil => exact (List.append_nil _).symm
  | cons incident later ih =>
      cases incident with
      | raised hart =>
          change raisedHarts (later ++ earlier) ++ [hart] = _ ++ (raisedHarts later ++ [hart])
          rw [ih, List.append_assoc]
      | _ => exact ih

theorem raisedHarts_eq (recent : List Incident) :
    raisedHarts recent = ((requests recent).filterMap Request.raisedHart?).reverse := by
  induction recent with
  | nil => rfl
  | cons incident recent ih =>
      cases incident with
      | raised hart =>
          change raisedHarts recent ++ [hart] =
            (hart :: (requests recent).filterMap Request.raisedHart?).reverse
          rw [ih, List.reverse_cons]
      | _ => exact ih

theorem count_performed_cons (hart other : Nat) (event kind : Event) (earlier : List Incident) :
    (Incident.performed hart event :: earlier).count (.performed other kind) =
      earlier.count (.performed other kind) + if other = hart ∧ kind = event then 1 else 0 := by
  rw [List.count_cons]
  by_cases hsame : other = hart ∧ kind = event
  · simp [hsame]
  · have hne : ¬(hart = other ∧ event = kind) := fun h => hsame ⟨h.1.symm, h.2.symm⟩
    simp [hsame, hne]

/-!
# Halfway through a send

A hart that the event has been posted to still has it in its slot, or has drained the slot
and carried the event out.
-/

def Drained (posted : List Nat) (t : System κ σ) (hart : Nat) : Prop :=
  hart ∈ posted ∧ t.dispatcher.slots hart = none

instance (posted : List Nat) (t : System κ σ) (hart : Nat) :
    Decidable (Drained posted t hart) :=
  inferInstanceAs (Decidable (_ ∧ _))

/-- What a lone send of an event that began in `s` has brought about when the event has been
posted to some harts. -/
structure Fanned (event : Event) (s : System κ σ) (posted : List Nat) (t : System κ σ) :
    Prop where
  raised : raisedHarts t.history = raisedHarts s.history ++ posted
  slots : ∀ hart, t.dispatcher.slots hart = none ∨
    (hart ∈ posted ∧ t.dispatcher.slots hart = some event)
  performed : ∀ hart kind, t.history.count (.performed hart kind) =
    s.history.count (.performed hart kind) +
      if Drained posted t hart ∧ kind = event then 1 else 0
  available : ∀ hart, hart ∈ t.dispatcher.available ↔
    hart ∈ s.dispatcher.available ∧ ¬(event = .halt ∧ Drained posted t hart)

namespace Fanned

variable {event : Event} {s t : System κ σ} {posted : List Nat}

theorem start (hempty : ∀ hart, s.dispatcher.slots hart = none) : Fanned event s [] s where
  raised := (List.append_nil _).symm
  slots hart := Or.inl (hempty hart)
  performed hart kind := by simp [Drained]
  available hart := by simp [Drained]

theorem noting (h : Fanned event s posted t) (incident : Incident)
    (hraised : ∀ earlier, raisedHarts (incident :: earlier) = raisedHarts earlier)
    (hperformed : ∀ hart kind, incident ≠ .performed hart kind) :
    Fanned event s posted (t.noting incident) where
  raised := (hraised t.history).trans h.raised
  slots := h.slots
  performed hart kind :=
    (List.count_cons_of_ne (hperformed hart kind)).trans (h.performed hart kind)
  available := h.available

theorem within (h : Fanned event s posted t) (outside : σ) :
    Fanned event s posted (t.within outside) := ⟨h.raised, h.slots, h.performed, h.available⟩

theorem entered (h : Fanned event s posted t) {env : Environment κ σ} {hart : Nat}
    {u : System κ σ} (hentered : Entered env hart t u) : Fanned event s posted u := by
  cases hentered with
  | unregistered => exact h.noting _ (fun _ => rfl) nofun
  | registered =>
      exact ((h.noting (.entered hart) (fun _ => rfl) nofun).within _).noting (.cleared hart)
        (fun _ => rfl) nofun

theorem event_of_full (h : Fanned event s posted t) {hart : Nat} {found : Event}
    (hfull : t.dispatcher.slots hart = some found) : hart ∈ posted ∧ found = event := by
  rcases h.slots hart with hempty | ⟨hposted, hevent⟩
  · rw [hempty] at hfull
    cases hfull
  · exact ⟨hposted, Option.some.inj (hfull.symm.trans hevent)⟩

theorem draining (h : Fanned event s posted t) {hart : Nat}
    (hfull : t.dispatcher.slots hart = some event) {u : System κ σ}
    (hraised : raisedHarts u.history = raisedHarts t.history)
    (hslots : ∀ other, u.dispatcher.slots other =
      if other = hart then none else t.dispatcher.slots other)
    (hperformed : ∀ other kind, u.history.count (.performed other kind) =
      t.history.count (.performed other kind) + if other = hart ∧ kind = event then 1 else 0)
    (havailable : ∀ other, other ∈ u.dispatcher.available ↔
      other ∈ t.dispatcher.available ∧ ¬(event = .halt ∧ other = hart)) :
    Fanned event s posted u := by
  have hposted := (h.event_of_full hfull).1
  -- Only this hart has drained its slot now and had not before.
  have hself : ¬Drained posted t hart ∧ Drained posted u hart := by
    refine ⟨fun hdrained => ?_, hposted, by rw [hslots, if_pos rfl]⟩
    rw [hdrained.2] at hfull
    cases hfull
  have hothers : ∀ other, other ≠ hart → (Drained posted u other ↔ Drained posted t other) := by
    intro other hne
    unfold Drained
    rw [hslots, if_neg hne]
  refine ⟨hraised.trans h.raised, ?_, ?_, ?_⟩
  · intro other
    rw [hslots]
    by_cases hother : other = hart
    · rw [if_pos hother]
      exact Or.inl rfl
    · rw [if_neg hother]
      exact h.slots other
  · intro other kind
    rw [hperformed, h.performed]
    by_cases hother : other = hart
    · subst hother
      simp [hself]
    · simp [hother, hothers other hother]
  · intro other
    rw [havailable, h.available]
    by_cases hother : other = hart
    · subst hother
      simp [hself]
    · simp [hother, hothers other hother]

theorem posting (h : Fanned event s posted t) {hart : Nat} (hnew : hart ∉ posted) (origin : Nat)
    (outside : σ) : Fanned event s (posted ++ [hart])
      (((t.storing origin hart event).within outside).noting (.raised hart)) := by
  have hslots : ∀ other, (t.dispatcher.setSlot hart (some event)).slots other =
      if other = hart then some event else t.dispatcher.slots other := fun _ => rfl
  have hdrained : ∀ other,
      Drained (posted ++ [hart])
        (((t.storing origin hart event).within outside).noting (.raised hart)) other ↔
      Drained posted t other := by
    intro other
    change other ∈ posted ++ [hart] ∧
      (t.dispatcher.setSlot hart (some event)).slots other = none ↔
      other ∈ posted ∧ _
    rw [hslots]
    by_cases hother : other = hart
    · subst hother
      simp [hnew]
    · simp [hother]
  refine ⟨?_, ?_, ?_, ?_⟩
  · change raisedHarts t.history ++ [hart] = _
    rw [h.raised, List.append_assoc]
  · intro other
    change (t.dispatcher.setSlot hart (some event)).slots other = none ∨
      _ ∧ (t.dispatcher.setSlot hart (some event)).slots other = some event
    rw [hslots]
    by_cases hother : other = hart
    · subst hother
      exact Or.inr ⟨List.mem_append_right posted List.mem_cons_self, if_pos rfl⟩
    · rw [if_neg hother]
      rcases h.slots other with hempty | ⟨hposted, hevent⟩
      · exact Or.inl hempty
      · exact Or.inr ⟨List.mem_append_left _ hposted, hevent⟩
  · intro other kind
    simp only [hdrained]
    have hraised : Incident.raised hart ≠ .performed other kind := nofun
    have hstored : Incident.stored origin hart event ≠ .performed other kind := nofun
    exact ((List.count_cons_of_ne hraised).trans (List.count_cons_of_ne hstored)).trans
      (h.performed other kind)
  · intro other
    rw [hdrained]
    exact h.available other

theorem process (h : Fanned event s posted t) {env : Environment κ σ} (henv : OnlyProcesses env)
    {hart : Nat} {u : System κ σ} (hcourse : Course env (.call (.process hart)) t u) :
    Fanned event s posted u := by
  cases hcourse with
  | idle entered empty => exact (h.entered entered).noting _ (fun _ => rfl) nofun
  | @handled _ _ _ outside _ t' u' entered full running performed inner =>
      have hentered := h.entered entered
      rcases hentered.event_of_full full with ⟨-, rfl⟩
      cases henv.perform performed
      cases inner
      refine Fanned.noting ?_ (.left hart) (fun _ => rfl) nofun
      refine hentered.draining full rfl ?_ ?_ ?_
      · intro other
        change (t'.dispatcher.consumed hart _).slots other = _
        rw [Dispatcher.consumed_of_full full]
        rfl
      · exact fun other kind => count_performed_cons hart other _ kind t'.history
      · intro other
        simp [running]
  | @parked _ _ outside _ t' u' entered full performed inner =>
      have hentered := h.entered entered
      rcases hentered.event_of_full full with ⟨-, rfl⟩
      cases henv.perform performed
      cases inner
      refine Fanned.noting ?_ (.left hart) (fun _ => rfl) nofun
      refine hentered.draining full rfl ?_ ?_ ?_
      · intro other
        change ((t'.withdrawing hart).dispatcher.consumed hart _).slots other = _
        have hwithdrawn : (t'.withdrawing hart).dispatcher.slots hart = some .halt := full
        rw [Dispatcher.consumed_of_full hwithdrawn]
        rfl
      · intro other kind
        have hwithdrawn : Incident.madeUnavailable hart ≠ .performed other kind := nofun
        rw [← List.count_cons_of_ne hwithdrawn]
        exact count_performed_cons hart other _ kind _
      · intro other
        simp [and_comm]

theorem processes (h : Fanned event s posted t) {env : Environment κ σ}
    (henv : OnlyProcesses env) {calls : List Call}
    (hcalls : Processing calls) {u : System κ σ}
    (hcourse : Course env (.calls calls) t u) : Fanned event s posted u := by
  induction calls generalizing t with
  | nil =>
      cases hcourse
      exact h
  | cons made calls ih =>
      rcases List.forall_mem_cons.mp hcalls with ⟨⟨hart, rfl⟩, hlater⟩
      cases hcourse with
      | next first rest => exact ih (h.process henv first) hlater rest

theorem posts (h : Fanned event s posted t) {env : Environment κ σ} (henv : OnlyProcesses env)
    {controller : κ} {origin : Nat} {harts : List Nat} (hnew : (posted ++ harts).Nodup)
    {u : System κ σ} (hcourse : Course env (.posts controller origin event harts) t u) :
    Fanned event s (posted ++ harts) u := by
  induction harts generalizing posted t with
  | nil =>
      cases hcourse
      rw [List.append_nil]
      exact h
  | cons hart harts ih =>
      have hsplit : posted ++ hart :: harts = (posted ++ [hart]) ++ harts := by simp
      cases hcourse with
      | @post _ _ _ _ _ _ raised _ logged _ _ _ raise inner log rest =>
          have hfresh : hart ∉ posted := fun hmem =>
            (List.nodup_append.mp hnew).2.2 hart hmem hart List.mem_cons_self rfl
          have hstored := h.posting hfresh origin raised
          have hinner := (hstored.processes henv (henv.raise raise) inner).within logged
          rw [hsplit] at hnew ⊢
          exact ih hinner hnew rest

end Fanned

theorem Fanned.drained_iff {event : Event} {s t : System κ σ} {reached : HartSet}
    (h : Fanned event s reached.toList t)
    (hawaited : ∀ hart ∈ reached, t.dispatcher.slots hart = none) (hart : Nat) :
    t.dispatcher.slots hart = none ∧ (Drained reached.toList t hart ↔ hart ∈ reached) := by
  have hempty : t.dispatcher.slots hart = none := by
    rcases h.slots hart with hempty | ⟨hposted, -⟩
    · exact hempty
    · exact hawaited hart (HartSet.mem_toList.mp hposted)
  refine ⟨hempty, ?_⟩
  unfold Drained
  rw [HartSet.mem_toList]
  exact and_iff_left hempty

theorem asked_of_send {env : Environment κ σ} {others : List Call → Run κ σ Unit}
    (hothers : MakesCalls env others) {asked : σ → List Request} (hlog : KeepsLog env asked)
    {origin : Nat} {targets : Option HartSet} {event : Option Event} {s u : System κ σ}
    (hsend : send env others origin targets event s = .ok () u) {since : List Incident}
    (hsince : u.history = since ++ s.history) :
    asked u.outside = requests since ++ asked s.outside := by
  have htallies := hlog.tallies hothers (.send origin targets event) s
  unfold Call.run finalState at htallies
  simp only [hsend] at htallies
  rcases htallies with ⟨recent, hrecent, hasked⟩
  rw [hasked, List.append_cancel_right (hsince.symm.trans hrecent)]

/-- A lone synchronous send that begins with empty slots interrupts the harts it reaches once
each, in ascending order; each of them carries the event out once, and nothing else is carried
out.  It leaves all slots empty, and of the available harts it takes away those that have
parked.  Surroundings that keep a log have been asked for just these interrupts and effects. -/
theorem fanOut_of_lone_send {env : Environment κ σ} {others : List Call → Run κ σ Unit}
    (hothers : MakesCalls env others) (henv : OnlyProcesses env) {controller : κ} {origin : Nat}
    {targets : Option HartSet} {event : Event} (hsync : event.isSynchronous = true)
    {s u : System κ σ} (hregistered : s.dispatcher.controller = some controller)
    (hempty : ∀ hart, s.dispatcher.slots hart = none)
    (hsend : send env others origin targets (some event) s = .ok () u) :
    ∃ since, u.history = since ++ s.history ∧
      raisedHarts since = (s.dispatcher.reached origin targets).toList ∧
      (raisedHarts since).Pairwise (· < ·) ∧
      (∀ hart kind, since.count (.performed hart kind) =
        if hart ∈ s.dispatcher.reached origin targets ∧ kind = event then 1 else 0) ∧
      (∀ hart, u.dispatcher.slots hart = none) ∧
      (event ≠ .halt → u.dispatcher.available = s.dispatcher.available) ∧
      (event = .halt → ∀ hart, hart ∈ u.dispatcher.available ↔
        hart ∈ s.dispatcher.available ∧ hart ∉ s.dispatcher.reached origin targets) ∧
      ∀ asked : σ → List Request, KeepsLog env asked →
        ∃ made, asked u.outside = made ++ asked s.outside ∧
          (made.filterMap Request.raisedHart?).reverse =
            (s.dispatcher.reached origin targets).toList ∧
          ∀ hart kind, made.count (.perform hart kind) =
            if hart ∈ s.dispatcher.reached origin targets ∧ kind = event then 1 else 0 := by
  rcases posts_of_deliver hregistered (deliver_of_send hsend) with ⟨hposts, hawaited⟩
  have hcourse := course_of_posts hothers.follows hposts
  rcases hcourse.later with ⟨since, hsince⟩
  have hnodup : ([] ++ (s.dispatcher.reached origin targets).toList).Nodup :=
    (HartSet.pairwise_toList _).imp Nat.ne_of_lt
  have hfanned : Fanned event s (s.dispatcher.reached origin targets).toList u :=
    (Fanned.start hempty).posts henv hnodup hcourse
  have hdrained := hfanned.drained_iff (hawaited hsync)
  have hraised : raisedHarts since = (s.dispatcher.reached origin targets).toList := by
    have hwhole := hfanned.raised
    rw [hsince.history, raisedHarts_append] at hwhole
    exact List.append_cancel_left hwhole
  have hperformed (hart : Nat) (kind : Event) : since.count (.performed hart kind) =
      if hart ∈ s.dispatcher.reached origin targets ∧ kind = event then 1 else 0 := by
    have hcount := hfanned.performed hart kind
    rw [hsince.history, List.count_append, Nat.add_comm] at hcount
    simp only [(hdrained hart).2] at hcount
    exact Nat.add_left_cancel hcount
  refine ⟨since, hsince.history, hraised, ?_, hperformed, fun hart => (hdrained hart).1,
    ?_, ?_, ?_⟩
  · rw [hraised]
    exact HartSet.pairwise_toList _
  · intro hrunning
    apply HartSet.ext_mem
    intro hart
    rw [hfanned.available]
    simp [hrunning]
  · intro hhalt hart
    rw [hfanned.available, (hdrained hart).2]
    simp [hhalt]
  · intro asked hlog
    refine ⟨requests since, asked_of_send hothers hlog hsend hsince.history, ?_,
      fun hart kind => ?_⟩
    · rw [← raisedHarts_eq, hraised]
    · rw [count_perform_requests, hperformed]

/-!
# Harts without reactions

On the bench, controllers and devices only make harts process their slots.  A hart whose
effects nobody sees makes no calls while it carries an event out.
-/

theorem processing_of_write32 {address : UInt64} {value : UInt32} {b b' : Bench}
    {calls : List Call} (h : Bench.write32 address value b = .ok calls b') :
    Processing calls := by
  rcases ok_of_bind_ok h with ⟨_, b₁, hpoke, h⟩
  rcases ok_of_bind_ok h with ⟨_, b₂, hrecord, h⟩
  by_cases hzero : value = 0
  · rw [if_pos hzero] at h
    cases h
    exact processing_map []
  · rw [if_neg hzero] at h
    rcases ok_of_bind_ok h with ⟨_, b₃, hget, h⟩
    cases h
    exact processing_map _

theorem processing_of_collect_raise {config : Mswi.Config} {hart : Nat} {b b' : Bench}
    {calls : List Call} (h : Bench.collect (config.raise hart) b = .ok calls b') :
    Processing calls := by
  rcases ok_of_bind_ok h with ⟨⟨_, collected⟩, b₁, hraise, h⟩
  cases h
  unfold Mswi.Config.raise Mswi.Config.write at hraise
  cases hregister : config.register? hart with
  | none =>
      rw [hregister] at hraise
      cases hraise
      exact processing_map []
  | some address =>
      rw [hregister] at hraise
      unfold store32 at hraise
      by_cases haligned : address % 4 = 0
      · simp only [if_pos haligned] at hraise
        rcases ok_of_bind_ok hraise with ⟨more, b₂, hwrite, h⟩
        cases h
        exact processing_of_write32 hwrite
      · simp only [if_neg haligned] at hraise
        cases hraise

theorem onlyProcesses_quietEnvironment : OnlyProcesses Bench.quietEnvironment where
  raise {controller hart b b' calls} h := by
    cases controller with
    | mswi driver =>
        rcases ok_of_bind_ok h with ⟨serving, b₁, hserving, h⟩
        cases serving with
        | none =>
            cases h
            exact fun made hmade => absurd hmade List.not_mem_nil
        | some number =>
            rcases ok_of_bind_ok h with ⟨config, b₂, hconfig, hcollect⟩
            exact processing_of_collect_raise hcollect
    | scripted number =>
        rcases ok_of_bind_ok h with ⟨_, b₁, hrecord, h⟩
        rcases ok_of_bind_ok h with ⟨_, b₂, hget, h⟩
        cases h
        exact processing_map _
  perform {hart event b b' calls} h := by
    cases h
    rfl

theorem onlyProcesses_logged {env : Environment κ σ} (henv : OnlyProcesses env) :
    OnlyProcesses env.logged where
  raise {controller hart outside outside' calls} h := by
    rcases ok_of_bind_ok h with ⟨found, between, hraise, h⟩
    rcases ok_of_bind_ok h with ⟨_, _, _, h⟩
    cases h
    rcases ok_of_beside hraise with ⟨left, hleft, -⟩
    exact henv.raise hleft
  perform {hart event outside outside' calls} h := by
    rcases ok_of_bind_ok h with ⟨_, _, _, hperform⟩
    rcases ok_of_beside hperform with ⟨left, hleft, -⟩
    exact henv.perform hleft

def untimelyMachine : System Controller (Bench × List Request) where
  dispatcher := { controller := some (.scripted 0), available := .ofList [0, 1, 2, 3, 4] }
  outside :=
    ({ script :=
      { atHart := fun hart =>
          if hart = 2 then [3, 2, 1, 2, 0] else if hart = 3 then [3] else [] } },
      [])

def haltedTrio : System Controller (Bench × List Request) :=
  finalState (send Bench.quietEnvironment.logged (carryOut Bench.quietEnvironment.logged 1) 0
    (some (.ofList [1, 2, 3])) (some .halt)) untimelyMachine

theorem fanOut_haltedTrio :
    ∃ since, haltedTrio.history = since ++ untimelyMachine.history ∧
      raisedHarts since =
        (untimelyMachine.dispatcher.reached 0 (some (.ofList [1, 2, 3]))).toList ∧
      (raisedHarts since).Pairwise (· < ·) ∧
      (∀ hart kind, since.count (.performed hart kind) =
        if hart ∈ untimelyMachine.dispatcher.reached 0 (some (.ofList [1, 2, 3])) ∧ kind = .halt
        then 1 else 0) ∧
      (∀ hart, haltedTrio.dispatcher.slots hart = none) ∧
      (Event.halt ≠ .halt →
        haltedTrio.dispatcher.available = untimelyMachine.dispatcher.available) ∧
      (Event.halt = .halt → ∀ hart, hart ∈ haltedTrio.dispatcher.available ↔
        hart ∈ untimelyMachine.dispatcher.available ∧
          hart ∉ untimelyMachine.dispatcher.reached 0 (some (.ofList [1, 2, 3]))) ∧
      ∃ made, haltedTrio.outside.2 = made ++ untimelyMachine.outside.2 ∧
        (made.filterMap Request.raisedHart?).reverse =
          (untimelyMachine.dispatcher.reached 0 (some (.ofList [1, 2, 3]))).toList ∧
        ∀ hart kind, made.count (.perform hart kind) =
          if hart ∈ untimelyMachine.dispatcher.reached 0 (some (.ofList [1, 2, 3])) ∧
            kind = .halt
          then 1 else 0 := by
  have hsend : send Bench.quietEnvironment.logged (carryOut Bench.quietEnvironment.logged 1) 0
      (some (.ofList [1, 2, 3])) (some .halt) untimelyMachine = .ok () haltedTrio :=
    ok_of_succeeds (by decide +kernel)
  rcases fanOut_of_lone_send (makesCalls_carryOut Bench.quietEnvironment.logged 1)
      (onlyProcesses_logged onlyProcesses_quietEnvironment) rfl rfl (fun _ => rfl) hsend with
    ⟨since, hsince, hraised, horder, hperformed, hslots, hkept, hlost, hlog⟩
  exact ⟨since, hsince, hraised, horder, hperformed, hslots, hkept, hlost,
    hlog Prod.snd (keepsLog_logged Bench.quietEnvironment)⟩

end Ipi
end Interhart
