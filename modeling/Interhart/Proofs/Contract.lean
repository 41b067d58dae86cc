import Interhart.Outcome

/-!
# Contracts

A contract speaks of both ends of an operation: the state in which it succeeds with a
value, and the state in which it breaks off.  What an operation did before it broke off
stays done, so invariants have to be promised for both.
-/

namespace Interhart

variable {σ α β : Type}

def exit? (operation : EStateM Exit σ α) (s : σ) : Option Exit :=
  match operation s with
  | .ok _ _ => none
  | .error exit _ => some exit

theorem error_of_exit? {operation : EStateM Exit σ α} {s : σ} {exit : Exit}
    (h : exit? operation s = some exit) :
    operation s = .error exit (finalState operation s) := by
  unfold exit? at h
  unfold finalState
  cases hrun : operation s with
  | ok value t =>
      rw [hrun] at h
      cases h
  | error found t =>
      rw [hrun] at h
      cases h
      rfl

/-- Begun where `before` holds, an operation either succeeds where `after` holds of its value,
or breaks off where `broken` holds of its exit. -/
def Contract (before : σ → Prop) (operation : EStateM Exit σ α) (after : α → σ → Prop)
    (broken : Exit → σ → Prop) : Prop :=
  ∀ s, before s →
    match operation s with
    | .ok value t => after value t
    | .error exit t => broken exit t

namespace Contract

variable {before : σ → Prop} {broken : Exit → σ → Prop}

theorem of_ok {operation : EStateM Exit σ α} {after : α → σ → Prop}
    (h : Contract before operation after broken) {s t : σ} {value : α} (hs : before s)
    (hrun : operation s = .ok value t) : after value t := by
  have hend := h s hs
  rw [hrun] at hend
  exact hend

theorem of_error {operation : EStateM Exit σ α} {after : α → σ → Prop}
    (h : Contract before operation after broken) {s t : σ} {exit : Exit} (hs : before s)
    (hrun : operation s = .error exit t) : broken exit t := by
  have hend := h s hs
  rw [hrun] at hend
  exact hend

theorem finalState {operation : EStateM Exit σ α} {left : σ → Prop}
    (h : Contract before operation (fun _ => left) fun _ => left) {s : σ} (hs : before s) :
    left (finalState operation s) := by
  unfold Interhart.finalState
  cases hrun : operation s with
  | ok value t => exact h.of_ok hs hrun
  | error exit t => exact h.of_error hs hrun

theorem weaken {operation : EStateM Exit σ α} {before' : σ → Prop} {after after' : α → σ → Prop}
    {broken' : Exit → σ → Prop} (h : Contract before operation after broken)
    (hbefore : ∀ s, before' s → before s) (hafter : ∀ value s, after value s → after' value s)
    (hbroken : ∀ exit s, broken exit s → broken' exit s) :
    Contract before' operation after' broken' := by
  intro s hs
  cases hrun : operation s with
  | ok value t => exact hafter value t (h.of_ok (hbefore s hs) hrun)
  | error exit t => exact hbroken exit t (h.of_error (hbefore s hs) hrun)

theorem breaking {operation : EStateM Exit σ α} {after : α → σ → Prop}
    {broken' : Exit → σ → Prop} (h : Contract before operation after broken)
    (hbroken : ∀ exit s, broken exit s → broken' exit s) :
    Contract before operation after broken' :=
  h.weaken (fun _ hs => hs) (fun _ _ hs => hs) hbroken

theorem succeeding {operation : EStateM Exit σ α} {after : α → σ → Prop}
    (h : ∀ s value t, before s → operation s = .ok value t → after value t) :
    Contract before operation after fun _ _ => True := by
  intro s hs
  cases hrun : operation s with
  | ok value t => exact h s value t hs hrun
  | error exit t => trivial

theorem assuming {fact : Prop} {operation : EStateM Exit σ α} {after : α → σ → Prop}
    (h : fact → Contract before operation after broken) :
    Contract (fun s => before s ∧ fact) operation after broken :=
  fun s hs => h hs.2 s hs.1

theorem value {after : α → σ → Prop} {value : α} (h : ∀ s, before s → after value s) :
    Contract before (pure value) after broken := h

theorem exit {after : α → σ → Prop} {exit : Exit} (h : ∀ s, before s → broken exit s) :
    Contract before (throw exit) after broken := h

theorem modify {after : Unit → σ → Prop} {change : σ → σ}
    (h : ∀ s, before s → after () (change s)) :
    Contract before (modify change) after broken := h

theorem bind {first : EStateM Exit σ α} {rest : α → EStateM Exit σ β}
    {between : α → σ → Prop} {after : β → σ → Prop}
    (hfirst : Contract before first between broken)
    (hrest : ∀ value, Contract (between value) (rest value) after broken) :
    Contract before (first >>= rest) after broken := by
  intro s hs
  change match EStateM.bind first rest s with
    | .ok value t => after value t
    | .error exit t => broken exit t
  unfold EStateM.bind
  cases hrun : first s with
  | ok value t => exact hrest value t (hfirst.of_ok hs hrun)
  | error exit t => exact hfirst.of_error hs hrun

theorem bind_ok {first : EStateM Exit σ α} {rest : α → EStateM Exit σ β}
    {after : β → σ → Prop} {s t : σ} {value : α} (hfirst : first s = .ok value t)
    (hrest : Contract (· = t) (rest value) after broken) :
    Contract (· = s) (first >>= rest) after broken := by
  intro s' hs
  rw [hs, bind_of_ok hfirst]
  exact hrest t rfl

theorem bind_error {first : EStateM Exit σ α} {rest : α → EStateM Exit σ β}
    {after : β → σ → Prop} {s t : σ} {exit : Exit} (hfirst : first s = .error exit t)
    (hbroken : broken exit t) : Contract (· = s) (first >>= rest) after broken := by
  intro s' hs
  rw [hs, bind_of_error hfirst]
  exact hbroken

theorem discard {operation : EStateM Exit σ α} {left : σ → Prop}
    (h : Contract before operation (fun _ => left) broken) :
    Contract before (discard operation) (fun _ => left) broken :=
  h.bind fun _ _ ht => ht

theorem orRefuse {answer : Except Error α} {after : α → σ → Prop}
    (hok : ∀ value, answer = .ok value → ∀ s, before s → after value s)
    (herror : ∀ error, answer = .error error → ∀ s, before s → broken (.refused error) s) :
    Contract before (orRefuse answer) after broken := by
  cases answer with
  | ok found => exact value (hok found rfl)
  | error error => exact exit (herror error rfl)

theorem get_bind {rest : σ → EStateM Exit σ α} {after : α → σ → Prop}
    (h : ∀ s, before s → Contract (· = s) (rest s) after broken) :
    Contract before (get >>= rest) after broken := by
  intro s hs
  exact h s hs s rfl

theorem get_bind_of_eq {rest : σ → EStateM Exit σ α} {after : α → σ → Prop} {s : σ}
    (h : Contract (· = s) (rest s) after broken) :
    Contract (· = s) (get >>= rest) after broken := by
  apply get_bind
  intro t ht
  rw [ht]
  exact h

theorem forM {step : α → EStateM Exit σ Unit} {items : List α} {invariant : σ → Prop}
    (h : ∀ item ∈ items, Contract invariant (step item) (fun _ => invariant) broken) :
    Contract invariant (items.forM step) (fun _ => invariant) broken := by
  induction items with
  | nil => exact fun s hs => hs
  | cons item items ih =>
      have hitems := List.forall_mem_cons.mp h
      exact bind hitems.1 fun _ => ih hitems.2

theorem forM_range' {step : Nat → EStateM Exit σ Unit} {reached : Nat → σ → Prop}
    (start count : Nat)
    (h : ∀ place, start ≤ place → place < start + count →
      Contract (reached place) (step place) (fun _ => reached (place + 1)) broken) :
    Contract (reached start) ((List.range' start count).forM step)
      (fun _ => reached (start + count)) broken := by
  induction count generalizing start with
  | zero => exact fun s hs => hs
  | succ count ih =>
      rw [List.range'_succ, show start + (count + 1) = start + 1 + count by omega]
      have hfirst := h start (Nat.le_refl _) (by omega)
      refine bind hfirst fun _ => ih (start + 1) fun place hle hlt => ?_
      exact h place (by omega) (by omega)

theorem poll {attempt : EStateM Exit σ (Option α)} {invariant : σ → Prop}
    (h : Contract invariant attempt (fun _ => invariant) broken)
    (hexhausted : ∀ s, invariant s → broken .exhausted s) (bound : Nat) :
    Contract invariant (poll attempt bound) (fun _ => invariant) broken := by
  induction bound with
  | zero => exact exit hexhausted
  | succ bound ih =>
      rw [poll_succ]
      refine h.bind fun result => ?_
      cases result with
      | none => exact ih
      | some found => exact value fun _ hs => hs

end Contract

/-!
# Invariants

An invariant holds at both ends of an operation if it holds when the operation begins.
-/

def Keeps (invariant : σ → Prop) (operation : EStateM Exit σ α) : Prop :=
  Contract invariant operation (fun _ => invariant) fun _ => invariant

namespace Keeps

variable {invariant : σ → Prop}

theorem value (value : α) : Keeps invariant (pure value : EStateM Exit σ α) :=
  Contract.value fun _ h => h

theorem exit (exit : Exit) : Keeps invariant (throw exit : EStateM Exit σ α) :=
  Contract.exit fun _ h => h

theorem modifying {change : σ → σ} (h : ∀ s, invariant s → invariant (change s)) :
    Keeps invariant (modify change) :=
  Contract.modify h

theorem bind {first : EStateM Exit σ α} {rest : α → EStateM Exit σ β}
    (hfirst : Keeps invariant first) (hrest : ∀ value, Keeps invariant (rest value)) :
    Keeps invariant (first >>= rest) :=
  Contract.bind hfirst hrest

theorem looking {rest : σ → EStateM Exit σ α}
    (h : ∀ s, invariant s → Keeps invariant (rest s)) : Keeps invariant (get >>= rest) := by
  apply Contract.get_bind
  rintro s hs _ rfl
  exact h _ hs _ hs

theorem changed {change : σ → σ} {rest : EStateM Exit σ α} {s : σ} (hs : invariant (change s))
    (hrest : Keeps invariant rest) :
    Contract (· = s) (modify change >>= fun _ => rest) (fun _ => invariant) fun _ =>
      invariant := by
  rintro s rfl
  exact hrest (change s) hs

theorem discarding {operation : EStateM Exit σ α} (h : Keeps invariant operation) :
    Keeps invariant (discard operation) :=
  Contract.discard h

theorem answering (answer : Except Error α) :
    Keeps invariant (orRefuse answer : EStateM Exit σ α) :=
  Contract.orRefuse (fun _ _ _ h => h) fun _ _ _ h => h

theorem polling {attempt : EStateM Exit σ (Option α)} (h : Keeps invariant attempt)
    (bound : Nat) : Keeps invariant (poll attempt bound) :=
  Contract.poll h (fun _ hs => hs) bound

theorem forM {step : α → EStateM Exit σ Unit} {items : List α}
    (h : ∀ item ∈ items, Keeps invariant (step item)) : Keeps invariant (items.forM step) :=
  Contract.forM h

end Keeps
end Interhart
