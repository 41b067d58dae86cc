import Interhart.Proofs.Ipi.Invariance

/-!
# What the surroundings are asked for

An incident tells of each hart that is interrupted, of each interrupt that is cleared, and of
each event that is carried out.  Surroundings that log what they are asked for bear this out:
the history tells of every request and of no other, however deeply calls are nested and however
they end.
-/

namespace Interhart
namespace Ipi

variable {κ σ : Type}

inductive Request
  | raise (hart : Nat)
  | clear (hart : Nat)
  | perform (hart : Nat) (event : Event)
deriving DecidableEq

def Request.raisedHart? : Request → Option Nat
  | .raise hart => some hart
  | _ => none

def Incident.request? : Incident → Option Request
  | .raised hart => some (.raise hart)
  | .cleared hart => some (.clear hart)
  | .performed hart event => some (.perform hart event)
  | _ => none

def requests (recent : List Incident) : List Request := recent.filterMap Incident.request?

theorem requests_append (later earlier : List Incident) :
    requests (later ++ earlier) = requests later ++ requests earlier :=
  List.filterMap_append

theorem count_perform_requests (hart : Nat) (event : Event) (recent : List Incident) :
    (requests recent).count (.perform hart event) = recent.count (.performed hart event) := by
  unfold requests
  rw [List.count, List.countP_filterMap, List.count]
  apply List.countP_congr
  intro incident _
  cases incident with
  | _ => simp [Incident.request?]

/-!
# Surroundings with a log
-/

/-- What a step adds to the log if it succeeds, and if it breaks off. -/
def Adds {α : Type} (asked : σ → List Request) (step : EStateM Exit σ α)
    (done broken : List Request) : Prop :=
  ∀ past, Contract (asked · = past) step (fun _ outside => asked outside = done ++ past)
    fun _ outside => asked outside = broken ++ past

/-- The surroundings log what they are asked for, the latest first.  An effect is logged as it
begins, and an interrupt and its end as they are done. -/
structure KeepsLog (env : Environment κ σ) (asked : σ → List Request) : Prop where
  raise (controller : κ) (hart : Nat) : Adds asked (env.raise controller hart) [.raise hart] []
  clear (controller : κ) (hart : Nat) : Adds asked (env.clear controller hart) [.clear hart] []
  perform (hart : Nat) (event : Event) :
    Adds asked (env.perform hart event) [.perform hart event] [.perform hart event]
  returned (answer : Except Error Unit) : Adds asked (env.returned answer) [] []
  log (record : LogRecord) : Adds asked (env.log record) [] []

/-- What the history has told since a system was in a state is what the log has got since. -/
def Tallies (asked : σ → List Request) (s t : System κ σ) : Prop :=
  ∃ recent, t.history = recent ++ s.history ∧
    asked t.outside = requests recent ++ asked s.outside

namespace Tallies

variable {asked : σ → List Request} {s t u : System κ σ}

theorem refl (s : System κ σ) : Tallies asked s s := ⟨[], rfl, rfl⟩

theorem trans (h : Tallies asked s t) (h' : Tallies asked t u) : Tallies asked s u := by
  rcases h with ⟨earlier, hearlier, hasked⟩
  rcases h' with ⟨later, hlater, hasked'⟩
  refine ⟨later ++ earlier, ?_, ?_⟩
  · rw [hlater, hearlier, List.append_assoc]
  · rw [hasked', hasked, requests_append, List.append_assoc]

theorem noting (h : Tallies asked s t) (recent : List Incident) (hsilent : requests recent = [])
    (hhistory : u.history = recent ++ t.history) (houtside : u.outside = t.outside) :
    Tallies asked s u :=
  h.trans ⟨recent, hhistory, by rw [houtside, hsilent, List.nil_append]⟩

end Tallies

theorem Adds.contract {asked : σ → List Request} {α : Type} {step : EStateM Exit σ α}
    {done broken : List Request} (h : Adds asked step done broken) (s : System κ σ) :
    Contract (· = s) (onOutside step : Run κ σ α)
      (fun _ t => t.history = s.history ∧ asked t.outside = done ++ asked s.outside)
      fun _ t => t.history = s.history ∧ asked t.outside = broken ++ asked s.outside := by
  intro t ht
  rw [ht]
  cases hrun : step s.outside with
  | ok value outside =>
      rw [onOutside_of_ok hrun]
      exact ⟨rfl, (h _).of_ok rfl hrun⟩
  | error exit outside =>
      rw [onOutside_of_error hrun]
      exact ⟨rfl, (h _).of_error rfl hrun⟩

theorem Adds.keeps {asked : σ → List Request} {start : System κ σ} {α : Type}
    {step : EStateM Exit σ α} (h : Adds asked step [] []) :
    Keeps (Tallies asked start) (onOutside step) := by
  intro s hs
  have hend {t : System κ σ} (ht : t.history = s.history ∧ asked t.outside = asked s.outside) :
      Tallies asked start t := hs.trans ⟨[], ht⟩
  exact (h.contract s).weaken (fun _ hs => hs) (fun _ _ => hend) (fun _ _ => hend) s rfl

namespace KeepsLog

variable {env : Environment κ σ} {asked : σ → List Request} (h : KeepsLog env asked)

include h

theorem contract_perform {start s t : System κ σ} (hs : Tallies asked start s) {hart : Nat}
    {event : Event} (recent : List Incident)
    (hrequest : requests recent = [.perform hart event])
    (hhistory : t.history = recent ++ s.history) (houtside : t.outside = s.outside) :
    Contract (· = t) (onOutside (env.perform hart event))
      (fun calls u => Tallies asked start u ∧ ∀ call ∈ calls, True)
      fun _ => Tallies asked start := by
  have hend {u : System κ σ} (hu : u.history = t.history ∧
      asked u.outside = [.perform hart event] ++ asked t.outside) : Tallies asked start u := by
    refine hs.trans ⟨recent, hu.1.trans hhistory, ?_⟩
    rw [hu.2, hrequest, houtside]
  exact ((h.perform hart event).contract t).weaken (fun _ hs => hs)
    (fun _ _ hu => ⟨hend hu, fun _ _ => trivial⟩) fun _ _ => hend

theorem upheld (start : System κ σ) : Upheld env (fun _ => True) (Tallies asked start) where
  entering hart hs := hs.noting [.entered hart] rfl rfl rfl
  leaving hart hs := hs.noting [.left hart] rfl rfl rfl
  storing origin hart event hs := hs.noting [.stored origin hart event] rfl rfl rfl
  resetting hart hs := hs.noting [.reset hart] rfl rfl rfl
  consuming _ _ hs := hs.noting [] rfl rfl rfl
  admitting hart _ hs := hs.noting [.madeAvailable hart] rfl rfl rfl
  withdrawing hart _ hs := hs.noting [.madeUnavailable hart] rfl rfl rfl
  bringingUp {_ _ _ hart} _ _ _ _ _ ht :=
    ht.noting [.broughtUp hart, .madeAvailable hart] rfl rfl rfl
  raise controller hart := by
    intro s hs
    refine ((h.raise controller hart).contract s).weaken (fun _ hs => hs) ?_ ?_ s rfl
    · exact fun _ t ht => ⟨hs.trans ⟨[.raised hart], congrArg _ ht.1, ht.2⟩, fun _ _ => trivial⟩
    · exact fun _ t ht => hs.trans ⟨[], ht⟩
  clear controller hart := by
    intro s hs
    refine ((h.clear controller hart).contract s).weaken (fun _ hs => hs) ?_ ?_ s rfl
    · exact fun _ t ht => hs.trans ⟨[.cleared hart], congrArg _ ht.1, ht.2⟩
    · exact fun _ t ht => hs.trans ⟨[], ht⟩
  perform hart event := by
    intro t ht
    rcases ht with ⟨s, hs, hnoted⟩
    have hhistory : t.history = [.performed hart event] ++ s.history :=
      congrArg (·.history) hnoted
    exact h.contract_perform hs _ rfl hhistory (congrArg (·.outside) hnoted) t rfl
  park hart := by
    intro t ht
    rcases ht with ⟨s, hs, hnoted⟩
    have hhistory : t.history = [.performed hart .halt, .madeUnavailable hart] ++ s.history :=
      congrArg (·.history) hnoted
    exact h.contract_perform hs _ rfl hhistory (congrArg (·.outside) hnoted) t rfl
  returned answer := (h.returned answer).keeps
  log record := (h.log record).keeps

/-- The history tells of what a call has asked for, and of nothing else. -/
theorem tallies {others : List Call → Run κ σ Unit} (hothers : MakesCalls env others)
    (made : Call) (s : System κ σ) : Tallies asked s (finalState (made.run env others) s) := by
  have hnested (calls : List Call) (hcalls : ∀ call ∈ calls, True) :
      Keeps (Tallies asked s) (others calls) := hothers.keeps (h.upheld s) hcalls
  exact Contract.finalState ((h.upheld s).run hnested trivial) (.refl s)

end KeepsLog

/-!
# A log beside any surroundings
-/

def beside {α : Type} (step : EStateM Exit σ α) : EStateM Exit (σ × List Request) α :=
  fun (outside, asked) =>
    match step outside with
    | .ok value outside => .ok value (outside, asked)
    | .error exit outside => .error exit (outside, asked)

def ask (request : Request) : EStateM Exit (σ × List Request) Unit :=
  modify fun (outside, asked) => (outside, request :: asked)

def Environment.logged (env : Environment κ σ) : Environment κ (σ × List Request) where
  name := env.name
  raise controller hart := do
    let calls ← beside (env.raise controller hart)
    ask (.raise hart)
    return calls
  clear controller hart := do
    beside (env.clear controller hart)
    ask (.clear hart)
  refusal controller hart s := env.refusal controller hart s.1
  perform hart event := do
    ask (.perform hart event)
    beside (env.perform hart event)
  returned answer := beside (env.returned answer)
  log record := beside (env.log record)

theorem ok_of_beside {α : Type} {step : EStateM Exit σ α} {s t : σ × List Request} {value : α}
    (h : beside step s = .ok value t) : ∃ outside, step s.1 = .ok value outside ∧
      t = (outside, s.2) := by
  simp only [beside] at h
  cases hstep : step s.1 with
  | ok found outside =>
      simp only [hstep] at h
      cases h
      exact ⟨outside, rfl, rfl⟩
  | error exit outside =>
      simp only [hstep] at h
      cases h

theorem adds_beside {α : Type} (step : EStateM Exit σ α) :
    Adds Prod.snd (beside step) [] [] := by
  rintro past ⟨outside, asked⟩ hpast
  simp only [beside]
  cases step outside with
  | ok value outside => exact hpast
  | error exit outside => exact hpast

theorem contract_ask {broken : Exit → σ × List Request → Prop} (request : Request)
    (past : List Request) :
    Contract (fun s : σ × List Request => s.2 = past) (ask request)
      (fun _ s => s.2 = request :: past) broken :=
  Contract.modify fun _ hs => congrArg (request :: ·) hs

theorem keepsLog_logged (env : Environment κ σ) : KeepsLog env.logged Prod.snd where
  raise _ _ past :=
    (adds_beside _ past).bind fun _ => (contract_ask _ past).bind fun _ =>
      Contract.value fun _ h => h
  clear _ _ past := (adds_beside _ past).bind fun _ => contract_ask _ past
  perform _ _ past := (contract_ask _ past).bind fun _ => adds_beside _ _
  returned _ := adds_beside _
  log _ := adds_beside _

end Ipi
end Interhart
