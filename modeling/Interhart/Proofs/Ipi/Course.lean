import Interhart.Machine.Harts

/-!
# Courses of calls

What the dispatcher does is told here by a relation: which call can lead from which
system to which other one.  The calls that harts make inside a call are part of its
course, however deeply they are nested, and no depth is mentioned.  Later modules
reason by induction over courses and do not open the operations again.

A call that breaks off, or waits for ever, has no course.
-/

namespace Interhart
namespace Ipi

variable {κ σ : Type}

namespace System

abbrev storing (s : System κ σ) (origin hart : Nat) (event : Event) : System κ σ :=
  (s.changing (·.setSlot hart (some event))).noting (.stored origin hart event)

abbrev resetting (s : System κ σ) (hart : Nat) : System κ σ :=
  (s.changing (·.setSlot hart none)).noting (.reset hart)

abbrev admitting (s : System κ σ) (hart : Nat) : System κ σ :=
  (s.changing fun d => { d with available := d.available.insert hart }).noting
    (.madeAvailable hart)

abbrev withdrawing (s : System κ σ) (hart : Nat) : System κ σ :=
  (s.changing fun d => { d with available := d.available.erase hart }).noting
    (.madeUnavailable hart)

abbrev consuming (s : System κ σ) (hart : Nat) (seen : Event) : System κ σ :=
  s.changing (·.consumed hart seen)

end System

inductive Task (κ : Type)
  | call (call : Call)
  | calls (calls : List Call)
  | posts (controller : κ) (origin : Nat) (event : Event) (harts : List Nat)

/-- A hart begins to process its slot: its interrupt is cleared if there is a controller. -/
inductive Entered (env : Environment κ σ) (hart : Nat) (s : System κ σ) : System κ σ → Prop
  | unregistered (h : s.dispatcher.controller = none) :
      Entered env hart s (s.noting (.entered hart))
  | registered {controller : κ} {outside : σ} (h : s.dispatcher.controller = some controller)
      (cleared : env.clear controller hart s.outside = .ok () outside) :
      Entered env hart s (((s.noting (.entered hart)).within outside).noting (.cleared hart))

inductive Course (env : Environment κ σ) : Task κ → System κ σ → System κ σ → Prop
  | done {s} : Course env (.calls []) s s
  | next {call calls s t u} (first : Course env (.call call) s t)
      (rest : Course env (.calls calls) t u) : Course env (.calls (call :: calls)) s u
  | idle {hart s t} (entered : Entered env hart s t) (empty : t.dispatcher.slots hart = none) :
      Course env (.call (.process hart)) s (t.noting (.left hart))
  | handled {hart event calls outside s t u} (entered : Entered env hart s t)
      (full : t.dispatcher.slots hart = some event) (running : event ≠ .halt)
      (performed : env.perform hart event t.outside = .ok calls outside)
      (inner : Course env (.calls calls)
        ((t.noting (.performed hart event)).within outside) u) :
      Course env (.call (.process hart)) s ((u.consuming hart event).noting (.left hart))
  | parked {hart calls outside s t u} (entered : Entered env hart s t)
      (full : t.dispatcher.slots hart = some .halt)
      (performed : env.perform hart .halt t.outside = .ok calls outside)
      (inner : Course env (.calls calls)
        ((((t.withdrawing hart).consuming hart .halt).noting (.performed hart .halt)).within
          outside) u) :
      Course env (.call (.process hart)) s (u.noting (.left hart))
  | refused {origin targets outside s}
      (returned : env.returned (.error .invalidArgument) s.outside = .ok () outside) :
      Course env (.call (.send origin targets none)) s (s.within outside)
  | dropped {origin targets event record logged outside s}
      (unregistered : s.dispatcher.controller = none)
      (log : env.log record s.outside = .ok () logged)
      (returned : env.returned (.ok ()) logged = .ok () outside) :
      Course env (.call (.send origin targets (some event))) s (s.within outside)
  | sent {controller origin targets event outside s t}
      (registered : s.dispatcher.controller = some controller)
      (posts : Course env
        (.posts controller origin event (s.dispatcher.reached origin targets).toList) s t)
      (awaited : event.isSynchronous = true →
        ∀ hart ∈ s.dispatcher.reached origin targets, t.dispatcher.slots hart = none)
      (returned : env.returned (.ok ()) t.outside = .ok () outside) :
      Course env (.call (.send origin targets (some event))) s (t.within outside)
  | unfit {hart s} : Course env (.call (.bringUp hart)) s s
  | rejected {hart s} : Course env (.call (.bringUp hart)) s (s.resetting hart)
  | broughtUp {controller hart outside s}
      (registered : s.dispatcher.controller = some controller)
      (cleared : env.clear controller hart s.outside = .ok () outside) :
      Course env (.call (.bringUp hart)) s
        (((((s.resetting hart).within outside).noting (.cleared hart)).admitting hart).noting
          (.broughtUp hart))
  | admitted {hart s} : Course env (.call (.makeAvailable hart)) s (s.admitting hart)
  | withdrawn {hart s} : Course env (.call (.makeUnavailable hart)) s (s.withdrawing hart)
  | posted {controller origin event s} : Course env (.posts controller origin event []) s s
  | post {controller origin event hart harts calls raised record logged s t u}
      (raise : env.raise controller hart s.outside = .ok calls raised)
      (inner : Course env (.calls calls)
        (((s.storing origin hart event).within raised).noting (.raised hart)) t)
      (log : env.log record t.outside = .ok () logged)
      (rest : Course env (.posts controller origin event harts) (t.within logged) u) :
      Course env (.posts controller origin event (hart :: harts)) s u

/-!
# Operations follow courses

Each operation that ends without breaking off has a course, provided that the handler
it is given for the calls of other harts makes them along courses.
-/

/-- A handler makes the calls it is given, with further calls nested in them
up to some depth. -/
def MakesCalls (env : Environment κ σ) (others : List Call → Run κ σ Unit) : Prop :=
  ∀ calls s, ∃ depth, others calls s = carryOut env depth calls s

theorem makesCalls_carryOut (env : Environment κ σ) (depth : Nat) :
    MakesCalls env (carryOut env depth) := fun _ _ => ⟨depth, rfl⟩

theorem makesCalls_handle : MakesCalls Bench.environment Machine.handle :=
  fun _ s => ⟨s.outside.depth, rfl⟩

def Follows (env : Environment κ σ) (others : List Call → Run κ σ Unit) : Prop :=
  ∀ {calls s t}, others calls s = .ok () t → Course env (.calls calls) s t

section Operations

variable {env : Environment κ σ} {others : List Call → Run κ σ Unit}

theorem entered_of_clearPending {hart : Nat} {s t : System κ σ}
    (h : clearPending env hart (s.noting (.entered hart)) = .ok () t) :
    Entered env hart s t := by
  unfold clearPending at h
  rw [get_bind, System.dispatcher_noting] at h
  cases hc : s.dispatcher.controller with
  | none =>
      rw [hc] at h
      cases h
      exact .unregistered hc
  | some controller =>
      rw [hc] at h
      rcases ok_of_bind_ok h with ⟨_, t₁, hclear, hnote⟩
      rcases ok_of_onOutside hclear with ⟨outside, hout, rfl⟩
      cases hnote
      exact .registered hc hout

theorem Entered.clearPending {hart : Nat} {s t : System κ σ} (h : Entered env hart s t) :
    clearPending env hart (s.noting (.entered hart)) = .ok () t := by
  unfold Ipi.clearPending
  rw [get_bind, System.dispatcher_noting]
  cases h with
  | unregistered hnone =>
      rw [hnone]
      rfl
  | registered hsome hcleared =>
      rw [hsome]
      exact bind_of_ok (onOutside_of_ok hcleared)

/-!
A hart that has begun to process its slot goes on by what it finds there.
-/

section Found

variable {hart : Nat} {s t : System κ σ} (hentered : Entered env hart s t)

include hentered

theorem drain_of_empty (hempty : t.dispatcher.slots hart = none) :
    drain env others hart s = .ok .resumed (t.noting (.left hart)) := by
  unfold drain
  rw [bind_of_ok (note_apply _ s), bind_of_ok hentered.clearPending, get_bind, hempty]
  rfl

theorem drain_of_running {event : Event} (hfull : t.dispatcher.slots hart = some event)
    (hrunning : event ≠ .halt) :
    drain env others hart s = (do
      effect env others hart event
      consume hart event
      note (.left hart)
      return .resumed : Run κ σ Ending) t := by
  unfold drain
  rw [bind_of_ok (note_apply _ s), bind_of_ok hentered.clearPending, get_bind, hfull]
  cases event with
  | halt => exact absurd rfl hrunning
  | soft => rfl
  | fenceI => rfl
  | sfenceVma => rfl

theorem drain_of_halt (hfull : t.dispatcher.slots hart = some .halt) :
    drain env others hart s = (do
      makeUnavailable hart
      consume hart .halt
      effect env others hart .halt
      note (.left hart)
      return .parked : Run κ σ Ending) t := by
  unfold drain
  rw [bind_of_ok (note_apply _ s), bind_of_ok hentered.clearPending, get_bind, hfull]

end Found

theorem ok_of_effect {hart : Nat} {event : Event} {s t : System κ σ}
    (h : effect env others hart event s = .ok () t) :
    ∃ calls outside, env.perform hart event s.outside = .ok calls outside ∧
      others calls ((s.noting (.performed hart event)).within outside) = .ok () t := by
  rcases ok_of_bind_ok h with ⟨_, s₁, hnote, h⟩
  cases hnote
  rcases ok_of_bind_ok h with ⟨calls, s₂, hperform, hcalls⟩
  rcases ok_of_onOutside hperform with ⟨outside, hout, rfl⟩
  exact ⟨calls, outside, hout, hcalls⟩

variable (env others) in
inductive Round (hart : Nat) (s : System κ σ) : Ending → System κ σ → Prop
  | idle {t} (entered : Entered env hart s t) (empty : t.dispatcher.slots hart = none) :
      Round hart s .resumed (t.noting (.left hart))
  | handled {event calls outside t u} (entered : Entered env hart s t)
      (full : t.dispatcher.slots hart = some event) (running : event ≠ .halt)
      (performed : env.perform hart event t.outside = .ok calls outside)
      (inner : others calls ((t.noting (.performed hart event)).within outside) = .ok () u) :
      Round hart s .resumed ((u.consuming hart event).noting (.left hart))
  | parked {calls outside t u} (entered : Entered env hart s t)
      (full : t.dispatcher.slots hart = some .halt)
      (performed : env.perform hart .halt t.outside = .ok calls outside)
      (inner : others calls
        ((((t.withdrawing hart).consuming hart .halt).noting (.performed hart .halt)).within
          outside) = .ok () u) :
      Round hart s .parked (u.noting (.left hart))

theorem exists_entered {hart : Nat} {ending : Ending} {s u : System κ σ}
    (h : drain env others hart s = .ok ending u) : ∃ t, Entered env hart s t := by
  rcases ok_of_bind_ok h with ⟨_, s₁, hnote, h⟩
  cases hnote
  rcases ok_of_bind_ok h with ⟨_, t, hclear, -⟩
  exact ⟨t, entered_of_clearPending hclear⟩

theorem round_of_drain {hart : Nat} {ending : Ending} {s u : System κ σ}
    (h : drain env others hart s = .ok ending u) : Round env others hart s ending u := by
  rcases exists_entered h with ⟨t, hentered⟩
  cases hslot : t.dispatcher.slots hart with
  | none =>
      rw [drain_of_empty hentered hslot] at h
      cases h
      exact .idle hentered hslot
  | some event =>
      by_cases hhalt : event = .halt
      · subst hhalt
        rw [drain_of_halt hentered hslot] at h
        rcases ok_of_bind_ok h with ⟨_, t₁, hwithdraw, h⟩
        cases hwithdraw
        rcases ok_of_bind_ok h with ⟨_, t₂, hconsume, h⟩
        cases hconsume
        rcases ok_of_bind_ok h with ⟨_, t₃, heffect, hleft⟩
        rcases ok_of_effect heffect with ⟨calls, outside, hperform, hinner⟩
        cases hleft
        exact .parked hentered hslot hperform hinner
      · rw [drain_of_running hentered hslot hhalt] at h
        rcases ok_of_bind_ok h with ⟨_, t₁, heffect, h⟩
        rcases ok_of_effect heffect with ⟨calls, outside, hperform, hinner⟩
        cases h
        exact .handled hentered hslot hhalt hperform hinner

theorem course_of_drain (hothers : Follows env others) {hart : Nat} {ending : Ending}
    {s u : System κ σ} (h : drain env others hart s = .ok ending u) :
    Course env (.call (.process hart)) s u := by
  cases round_of_drain h with
  | idle entered empty => exact .idle entered empty
  | handled entered full running performed inner =>
      exact .handled entered full running performed (hothers inner)
  | parked entered full performed inner => exact .parked entered full performed (hothers inner)

theorem inner_of_post (hothers : Follows env others) {controller : κ} {origin hart : Nat}
    {event : Event} {s u : System κ σ}
    (h : post env others controller origin event hart s = .ok () u) :
    ∃ calls raised record logged t,
      env.raise controller hart s.outside = .ok calls raised ∧
      Course env (.calls calls)
        (((s.storing origin hart event).within raised).noting (.raised hart)) t ∧
      env.log record t.outside = .ok () logged ∧ u = t.within logged := by
  rcases ok_of_bind_ok h with ⟨_, s₁, hstore, h⟩
  cases hstore
  rcases ok_of_bind_ok h with ⟨_, s₂, hnote, h⟩
  cases hnote
  rcases ok_of_bind_ok h with ⟨calls, s₃, hraise, h⟩
  rcases ok_of_onOutside hraise with ⟨raised, hraised, rfl⟩
  rcases ok_of_bind_ok h with ⟨_, s₄, hnote, h⟩
  cases hnote
  rcases ok_of_bind_ok h with ⟨_, t, hcalls, hlog⟩
  rcases ok_of_onOutside hlog with ⟨logged, hlogged, rfl⟩
  exact ⟨calls, raised, _, logged, t, hraised, hothers hcalls, hlogged, rfl⟩

theorem course_of_posts (hothers : Follows env others) {controller : κ} {origin : Nat}
    {event : Event} {harts : List Nat} {s u : System κ σ}
    (h : harts.forM (post env others controller origin event) s = .ok () u) :
    Course env (.posts controller origin event harts) s u := by
  induction harts generalizing s with
  | nil =>
      cases h
      exact .posted
  | cons hart harts ih =>
      rcases ok_of_bind_ok h with ⟨_, s₁, hpost, hrest⟩
      rcases inner_of_post hothers hpost with
        ⟨calls, raised, record, logged, t, hraise, hinner, hlog, rfl⟩
      exact .post hraise hinner hlog (ih hrest)

theorem empty_of_await {hart : Nat} {s t : System κ σ}
    (h : (await hart : Run κ σ Unit) s = .ok () t) :
    s.dispatcher.slots hart = none ∧ t = s := by
  unfold await at h
  rw [get_bind] at h
  cases hslot : s.dispatcher.slots hart with
  | none =>
      rw [hslot] at h
      cases h
      exact ⟨rfl, rfl⟩
  | some event =>
      rw [hslot] at h
      cases h

theorem empty_of_awaits {harts : List Nat} {s t : System κ σ}
    (h : harts.forM (await : Nat → Run κ σ Unit) s = .ok () t) :
    (∀ hart ∈ harts, s.dispatcher.slots hart = none) ∧ t = s := by
  induction harts with
  | nil =>
      cases h
      exact ⟨fun hart hmem => absurd hmem List.not_mem_nil, rfl⟩
  | cons hart harts ih =>
      rcases ok_of_bind_ok h with ⟨_, s₁, hawait, hrest⟩
      rcases empty_of_await hawait with ⟨hslot, rfl⟩
      rcases ih hrest with ⟨hslots, rfl⟩
      exact ⟨List.forall_mem_cons.mpr ⟨hslot, hslots⟩, rfl⟩

theorem posts_of_deliver {controller : κ} {origin : Nat} {targets : Option HartSet}
    {event : Event} {s u : System κ σ} (hregistered : s.dispatcher.controller = some controller)
    (h : deliver env others origin targets event s = .ok () u) :
    (s.dispatcher.reached origin targets).toList.forM
        (post env others controller origin event) s = .ok () u ∧
      (event.isSynchronous = true →
        ∀ hart ∈ s.dispatcher.reached origin targets, u.dispatcher.slots hart = none) := by
  unfold deliver at h
  rw [get_bind] at h
  dsimp only at h
  rw [hregistered] at h
  rcases ok_of_bind_ok h with ⟨_, t, hposts, hwait⟩
  cases hsync : event.isSynchronous with
  | false =>
      rw [hsync] at hwait
      cases hwait
      exact ⟨hposts, fun hfalse => absurd hfalse Bool.false_ne_true⟩
  | true =>
      rw [hsync] at hwait
      rcases empty_of_awaits hwait with ⟨hslots, rfl⟩
      exact ⟨hposts, fun _ hart hmem => hslots hart (HartSet.mem_toList.mpr hmem)⟩

theorem deliver_of_send {origin : Nat} {targets : Option HartSet} {event : Event}
    {s u : System κ σ} (h : send env others origin targets (some event) s = .ok () u) :
    deliver env others origin targets event s = .ok () u := by
  rcases ok_of_bind_ok h with ⟨answer, t, htry, hanswer⟩
  rcases ok_of_bind_ok htry with ⟨_, t₁, hdeliver, hok⟩
  cases hok
  cases hanswer
  exact hdeliver

theorem course_of_trySend (hothers : Follows env others) {origin : Nat}
    {targets : Option HartSet} {event : Option Event} {answer : Except Error Unit}
    {outside : σ} {s t : System κ σ}
    (h : trySend env others origin targets event s = .ok answer t)
    (hreturned : env.returned answer t.outside = .ok () outside) :
    Course env (.call (.send origin targets event)) s (t.within outside) := by
  cases event with
  | none =>
      cases h
      exact .refused hreturned
  | some event =>
      rcases ok_of_bind_ok h with ⟨_, t₁, hdeliver, hok⟩
      cases hok
      cases hc : s.dispatcher.controller with
      | none =>
          unfold deliver at hdeliver
          rw [get_bind] at hdeliver
          dsimp only at hdeliver
          rw [hc] at hdeliver
          rcases ok_of_onOutside hdeliver with ⟨logged, hlog, rfl⟩
          exact .dropped hc hlog hreturned
      | some controller =>
          rcases posts_of_deliver hc hdeliver with ⟨hposts, hawaited⟩
          exact .sent hc (course_of_posts hothers hposts) hawaited hreturned

theorem tryBringUp_of_unregistered {hart : Nat} {s : System κ σ}
    (unregistered : s.dispatcher.controller = none) :
    tryBringUp env hart s = .ok (.error .noDevice) s := by
  unfold tryBringUp
  rw [get_bind, unregistered]
  rfl

theorem tryBringUp_of_slotless {controller : κ} {hart : Nat} {s : System κ σ}
    (registered : s.dispatcher.controller = some controller) (slotless : ¬hart < hartLimit) :
    tryBringUp env hart s = .ok (.error .invalidArgument) s := by
  unfold tryBringUp
  rw [get_bind, registered]
  simp only [if_neg slotless]
  rfl

theorem tryBringUp_of_registered {controller : κ} {hart : Nat} {s : System κ σ}
    (registered : s.dispatcher.controller = some controller) (limit : hart < hartLimit) :
    tryBringUp env hart s =
      (match env.refusal controller hart s.outside with
        | some error => pure (.error error)
        | none => do
            clearInterrupt env controller hart
            makeAvailable hart
            note (.broughtUp hart)
            return .ok () : Run κ σ (Except Error Unit)) (s.resetting hart) := by
  unfold tryBringUp
  rw [get_bind, registered]
  simp only [if_pos limit]
  rw [bind_of_ok (onDispatcher_apply _ s), bind_of_ok (note_apply _ _), get_bind]
  rfl

theorem course_of_tryBringUp {hart : Nat} {answer : Except Error Unit} {s t : System κ σ}
    (h : tryBringUp env hart s = .ok answer t) : Course env (.call (.bringUp hart)) s t := by
  cases hc : s.dispatcher.controller with
  | none =>
      rw [tryBringUp_of_unregistered hc] at h
      cases h
      exact .unfit
  | some controller =>
      by_cases hlimit : hart < hartLimit
      · rw [tryBringUp_of_registered hc hlimit] at h
        cases hrefusal : env.refusal controller hart s.outside with
        | some error =>
            rw [hrefusal] at h
            cases h
            exact .rejected
        | none =>
            rw [hrefusal] at h
            rcases ok_of_bind_ok h with ⟨_, s₁, hclear, h⟩
            rcases ok_of_bind_ok hclear with ⟨_, s₂, hout, hnote⟩
            rcases ok_of_onOutside hout with ⟨outside, hcleared, rfl⟩
            cases hnote
            cases h
            exact .broughtUp hc hcleared
      · rw [tryBringUp_of_slotless hc hlimit] at h
        cases h
        exact .unfit

theorem course_of_call (hothers : Follows env others) {made : Call} {s t : System κ σ}
    (h : call env others made s = .ok () t) : Course env (.call made) s t := by
  cases made with
  | process hart =>
      rcases ok_of_bind_ok h with ⟨ending, t₁, hdrain, hend⟩
      cases hend
      exact course_of_drain hothers hdrain
  | send origin targets event =>
      rcases ok_of_bind_ok h with ⟨answer, t₁, hsend, hend⟩
      rcases ok_of_onOutside hend with ⟨outside, hreturned, rfl⟩
      exact course_of_trySend hothers hsend hreturned
  | bringUp hart =>
      rcases ok_of_bind_ok h with ⟨answer, t₁, hbring, hend⟩
      cases hend
      exact course_of_tryBringUp hbring
  | makeAvailable hart =>
      cases h
      exact .admitted
  | makeUnavailable hart =>
      cases h
      exact .withdrawn

theorem course_of_calls (hothers : Follows env others) {calls : List Call} {s t : System κ σ}
    (h : calls.forM (call env others) s = .ok () t) : Course env (.calls calls) s t := by
  induction calls generalizing s with
  | nil =>
      cases h
      exact .done
  | cons made calls ih =>
      rcases ok_of_bind_ok h with ⟨_, s₁, hcall, hrest⟩
      exact .next (course_of_call hothers hcall) (ih hrest)

end Operations

theorem follows_carryOut (env : Environment κ σ) (depth : Nat) :
    Follows env (carryOut env depth) := by
  induction depth with
  | zero =>
      intro calls s t h
      cases calls with
      | nil =>
          cases h
          exact .done
      | cons made calls => cases h
  | succ depth ih =>
      intro calls s t h
      exact course_of_calls ih h

theorem MakesCalls.follows {env : Environment κ σ} {others : List Call → Run κ σ Unit}
    (hothers : MakesCalls env others) : Follows env others := by
  intro calls s t h
  rcases hothers calls s with ⟨depth, hdepth⟩
  rw [hdepth] at h
  exact follows_carryOut env depth h

/-!
# Sends under way
-/

/-- A send that began in `s` has posted its event to `posted`, the first of the harts it
reaches, and this has led to `t`, with all that other harts did meanwhile. -/
structure UnderWay (env : Environment κ σ) (others : List Call → Run κ σ Unit) (origin : Nat)
    (targets : Option HartSet) (event : Event) (posted : List Nat) (s t : System κ σ) :
    Prop where
  part : posted <+: (s.dispatcher.reached origin targets).toList
  posts : ∃ controller, s.dispatcher.controller = some controller ∧
    posted.forM (post env others controller origin event) s = .ok () t

section UnderWay

variable {env : Environment κ σ} {others : List Call → Run κ σ Unit} {origin : Nat}
  {targets : Option HartSet} {event : Event}

theorem UnderWay.exists_course (hothers : MakesCalls env others) {posted : List Nat}
    {s t : System κ σ} (h : UnderWay env others origin targets event posted s t) :
    ∃ controller, Course env (.posts controller origin event posted) s t := by
  rcases h.posts with ⟨controller, -, hposts⟩
  exact ⟨controller, course_of_posts hothers.follows hposts⟩

theorem ok_of_forM_append_ok {step : Nat → Run κ σ Unit} {before after : List Nat}
    {s u : System κ σ} (h : (before ++ after).forM step s = .ok () u) :
    ∃ t, before.forM step s = .ok () t ∧ after.forM step t = .ok () u := by
  induction before generalizing s with
  | nil => exact ⟨s, rfl, h⟩
  | cons hart before ih =>
      rcases ok_of_bind_ok h with ⟨_, s₁, hfirst, hrest⟩
      rcases ih hrest with ⟨t, hbefore, hafter⟩
      exact ⟨t, (bind_of_ok hfirst).trans hbefore, hafter⟩

theorem exists_underWay {controller : κ} {s u : System κ σ}
    (hregistered : s.dispatcher.controller = some controller)
    (hposts : (s.dispatcher.reached origin targets).toList.forM
      (post env others controller origin event) s = .ok () u)
    {hart : Nat} (hreached : hart ∈ s.dispatcher.reached origin targets) :
    ∃ posted rest t, posted ++ [hart] <+: (s.dispatcher.reached origin targets).toList ∧
      UnderWay env others origin targets event posted s t ∧
      (hart :: rest).forM (post env others controller origin event) t = .ok () u := by
  rcases List.append_of_mem (HartSet.mem_toList.mpr hreached) with ⟨posted, rest, hsplit⟩
  rw [hsplit] at hposts
  rcases ok_of_forM_append_ok hposts with ⟨t, hposted, hrest⟩
  refine ⟨posted, rest, t, ⟨rest, ?_⟩, ⟨⟨hart :: rest, hsplit.symm⟩, controller, hregistered,
    hposted⟩, hrest⟩
  rw [hsplit, List.append_assoc]
  rfl

end UnderWay

end Ipi
end Interhart
