import Interhart.Machine.Harts
import Interhart.Proofs.Machine.Logging

/-!
# Pending bits of scripted controllers

The trace tells which interrupts of a scripted controller are pending: those of the harts
for which the latest entry says so.  Nothing that the bench does changes them except the
interrupts of that controller and their clearing.
-/

namespace Interhart

namespace Entry

def pendingAfter (device hart : Nat) : List Entry → Bool
  | [] => false
  | .raised number target :: earlier =>
      if number = device ∧ target = hart then true else pendingAfter device hart earlier
  | .cleared number target :: earlier =>
      if number = device ∧ target = hart then false else pendingAfter device hart earlier
  | _ :: earlier => pendingAfter device hart earlier

theorem pendingAfter_append_of_passive (device hart : Nat) {entries : List Entry}
    (h : ∀ entry ∈ entries, entry.IsPassive) (earlier : List Entry) :
    pendingAfter device hart (entries ++ earlier) = pendingAfter device hart earlier := by
  induction entries with
  | nil => rfl
  | cons entry entries ih =>
      rcases List.forall_mem_cons.mp h with ⟨hentry, hentries⟩
      rw [← ih hentries]
      cases entry with
      | read32 address value => rfl
      | read64 address value => rfl
      | logged record => rfl
      | _ => exact hentry.elim

end Entry

namespace Bench

def pending (device : Nat) (b : Bench) (hart : Nat) : Bool :=
    Entry.pendingAfter device hart b.trace

/-- A step, where it succeeds, leaves the pending bits of a scripted controller as they are. -/
def KeepsPending (device : Nat) {α : Type} (step : BenchM α) : Prop :=
  ∀ b value b', step b = .ok value b' → b'.pending device = b.pending device

namespace KeepsPending

variable {device : Nat} {α β : Type}

theorem value (value : α) : KeepsPending device (pure value) := by
  intro b found b' h
  cases h
  rfl

theorem state : KeepsPending device get := by
  intro b found b' h
  cases h
  rfl

theorem bind {first : BenchM α} {rest : α → BenchM β} (hfirst : KeepsPending device first)
    (hrest : ∀ value, KeepsPending device (rest value)) :
    KeepsPending device (first >>= rest) := by
  intro b value b' h
  rcases ok_of_bind_ok h with ⟨between, b₁, hstep, h⟩
  exact (hrest between b₁ value b' h).trans (hfirst b between b₁ hstep)

theorem modifying {change : Bench → Bench} (h : ∀ b, (change b).trace = b.trace) :
    KeepsPending device (modify change) := by
  intro b value b' hstep
  cases hstep
  funext hart
  exact congrArg (Entry.pendingAfter device hart) (h b)

theorem recording {entry : Entry}
    (h : ∀ hart earlier,
      Entry.pendingAfter device hart (entry :: earlier) =
        Entry.pendingAfter device hart earlier) :
    KeepsPending device (record entry) := by
  intro b value b' hstep
  cases hstep
  funext hart
  exact h hart b.trace

theorem logging (entry : LogRecord) : KeepsPending device (Bench.log entry) := by
  intro b value b' h
  rcases (Passive.logging entry b).of_ok (.refl b) h with ⟨_, _, entries, _, hentries, rfl⟩
  funext hart
  exact Entry.pendingAfter_append_of_passive device hart hentries b.trace

theorem reacting (hart : Nat) (event : Ipi.Event) :
    KeepsPending device (takeReaction hart event) := by
  apply bind state
  intro b
  dsimp only
  split
  · exact bind (modifying fun _ => rfl) fun _ => value _
  · exact value []

end KeepsPending
end Bench
end Interhart
