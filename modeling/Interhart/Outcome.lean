/-!
# How an operation ends

An operation may be refused for one of three causes, may break off on a fault of
arithmetic or alignment, may end with its hart parked, or may never end.  The last
case is split in two: a wait that nothing can end any more, and a wait longer than
the patience it was given.
-/

namespace Interhart

inductive Error
  | invalidArgument
  | noDevice
  | tableFull
deriving DecidableEq, Repr

def Error.message : Error → String
  | .invalidArgument => "invalid argument"
  | .noDevice => "no such device"
  | .tableFull => "not enough resources"

/-- Defects that break an operation off where it stands; what it did before stays done. -/
inductive Fault
  | sumOverflow
  | productOverflow
  | misalignedAccess
  | unevenPiece
deriving DecidableEq, Repr

def Fault.message : Fault → String
  | .sumOverflow => "attempt to add with overflow"
  | .productOverflow => "attempt to multiply with overflow"
  | .misalignedAccess => "assertion failed: ptr.is_aligned()"
  | .unevenPiece => "assertion failed: max_chunk.is_power_of_two()"

inductive Exit
  | refused (error : Error)
  | fault (fault : Fault)
  | parked
  /-- The operation waits for something that no hart will do. -/
  | stuck
  /-- The operation outlasted the bound it was given. -/
  | exhausted
deriving DecidableEq, Repr

/-!
# Repeated attempts

Polling loops run under an explicit bound.  The bound below is one that no loop
over a clock that advances can reach: such a loop ends within `2 ^ 64` reads.
-/

def patience : Nat := UInt64.size

def poll {m : Type → Type} [Monad m] [MonadExceptOf Exit m] {α : Type}
    (attempt : m (Option α)) : Nat → m α
  | 0 => throw .exhausted
  | bound + 1 => do
      match ← attempt with
      | some value => pure value
      | none => poll attempt bound

section Poll

variable {m : Type → Type} [Monad m] [MonadExceptOf Exit m] {α : Type} (attempt : m (Option α))

theorem poll_succ (bound : Nat) :
    poll attempt (bound + 1) =
      attempt >>= fun result =>
        match result with
        | some value => pure value
        | none => poll attempt bound := rfl

end Poll

/-!
# Steps in sequence
-/

section Sequence

variable {σ α β : Type}

theorem ok_of_bind_ok {first : EStateM Exit σ α} {rest : α → EStateM Exit σ β} {s u : σ} {b : β}
    (h : (first >>= rest) s = .ok b u) : ∃ a t, first s = .ok a t ∧ rest a t = .ok b u := by
  change EStateM.bind first rest s = .ok b u at h
  unfold EStateM.bind at h
  cases hfirst : first s with
  | ok a t =>
      rw [hfirst] at h
      exact ⟨a, t, rfl, h⟩
  | error exit t =>
      rw [hfirst] at h
      cases h

theorem bind_of_ok {first : EStateM Exit σ α} {rest : α → EStateM Exit σ β} {s t : σ} {a : α}
    (h : first s = .ok a t) : (first >>= rest) s = rest a t := by
  change EStateM.bind first rest s = rest a t
  unfold EStateM.bind
  rw [h]

theorem bind_of_error {first : EStateM Exit σ α} {rest : α → EStateM Exit σ β} {s t : σ}
    {exit : Exit} (h : first s = .error exit t) : (first >>= rest) s = .error exit t := by
  change EStateM.bind first rest s = .error exit t
  unfold EStateM.bind
  rw [h]

theorem get_bind {rest : σ → EStateM Exit σ α} {s : σ} : (get >>= rest) s = rest s s := rfl

theorem poll_of_some {attempt : EStateM Exit σ (Option α)} {s t : σ} {value : α}
    (h : attempt s = .ok (some value) t) (bound : Nat) :
    poll attempt (bound + 1) s = .ok value t := bind_of_ok h

theorem poll_of_none {attempt : EStateM Exit σ (Option α)} {s t : σ}
    (h : attempt s = .ok none t) (bound : Nat) :
    poll attempt (bound + 1) s = poll attempt bound t := bind_of_ok h

end Sequence

/-!
# Running an operation
-/

section Running

variable {σ α : Type}

def finalState (operation : EStateM Exit σ α) (s : σ) : σ :=
  match operation s with
  | .ok _ t => t
  | .error _ t => t

def succeeds (operation : EStateM Exit σ α) (s : σ) : Bool :=
  match operation s with
  | .ok _ _ => true
  | .error _ _ => false

theorem exists_ok_of_succeeds {operation : EStateM Exit σ α} {s : σ}
    (h : succeeds operation s = true) :
    ∃ value, operation s = .ok value (finalState operation s) := by
  unfold succeeds at h
  unfold finalState
  cases hop : operation s with
  | ok value t => exact ⟨value, rfl⟩
  | error exit t =>
      rw [hop] at h
      cases h

theorem ok_of_succeeds {operation : EStateM Exit σ Unit} {s : σ}
    (h : succeeds operation s = true) : operation s = .ok () (finalState operation s) := by
  rcases exists_ok_of_succeeds h with ⟨_, hrun⟩
  exact hrun

end Running

def orRefuse {σ α : Type} : Except Error α → EStateM Exit σ α
  | .ok value => pure value
  | .error error => throw (.refused error)

end Interhart
