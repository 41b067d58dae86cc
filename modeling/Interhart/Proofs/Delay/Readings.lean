import Interhart.Machine.Timer
import Mathlib.Data.Nat.Find

/-!
# Waiting by a clock

A delay knows of the time only what a clock shows, which is no more than a word holds, and it
may miss the end of a long step for that reason.  It never takes a short time for a long one:
what it finds to have gone by since its first reading is the true time or less.  A clock that
goes on by small steps shows the true time to the end, so the delay ends with the first reading
that is late enough.
-/

namespace Interhart

/-- Readings of a clock, one after the other: what surrounds the clock before each of them, and
the true time, of which a reading shows as much as a word holds. -/
structure Readings {σ : Type} (read : EStateM Exit σ UInt64) (s : Nat → σ) (time : Nat → Nat) :
    Prop where
  shown : ∀ n, read (s n) = .ok (UInt64.ofNat (time n)) (s (n + 1))
  forward : ∀ n, time n ≤ time (n + 1)

section Waiting

variable {m : Type → Type} [Monad m] [MonadExceptOf Exit m] (read : m UInt64) (ticks : UInt64)

def lookAgain (start : UInt64) : m (Option Unit) := do
  let now ← read
  pure (if now - start < ticks then none else some ())

def waitTicksWithin (bound : Nat) : m Unit := do
  let start ← read
  poll (lookAgain read ticks start) bound

theorem waitTicks_eq : waitTicks read ticks = waitTicksWithin read ticks patience := rfl

end Waiting

/-- A delay ends with a certain reading, the first of all being number 0: it needs just as many
more of them, and is given up if it may not have as many. -/
def EndsAt {σ : Type} (read : EStateM Exit σ UInt64) (ticks : UInt64) (s : Nat → σ)
    (last : Nat) : Prop :=
  ∀ bound, waitTicksWithin read ticks bound (s 0) =
    if last ≤ bound then .ok () (s (last + 1)) else .error .exhausted (s (bound + 1))

section EndsAt

variable {σ : Type} {read : EStateM Exit σ UInt64} {ticks : UInt64} {s : Nat → σ}
  {last other : Nat}

theorem EndsAt.ok (hends : EndsAt read ticks s last) (bound : Nat) (hle : last ≤ bound) :
    waitTicksWithin read ticks bound (s 0) = .ok () (s (last + 1)) := by
  rw [hends bound, if_pos hle]

theorem EndsAt.le (hends : EndsAt read ticks s last) (hother : EndsAt read ticks s other) :
    last ≤ other := by
  by_contra hlt
  have hgiven := hends other
  rw [hother.ok _ (Nat.le_refl _), if_neg hlt] at hgiven
  cases hgiven

theorem EndsAt.unique (hends : EndsAt read ticks s last) (hother : EndsAt read ticks s other) :
    last = other :=
  Nat.le_antisymm (hends.le hother) (hother.le hends)

end EndsAt

namespace Readings

variable {σ : Type} {read : EStateM Exit σ UInt64} {s : Nat → σ} {time : Nat → Nat}
  (h : Readings read s time) {ticks : UInt64}

/-!
# What a delay finds
-/

def Enough (time : Nat → Nat) (ticks : UInt64) (n : Nat) : Prop :=
  ticks.toNat ≤ (time n - time 0) % UInt64.size

instance (time : Nat → Nat) (ticks : UInt64) : DecidablePred (Enough time ticks) :=
  fun _ => inferInstanceAs (Decidable (_ ≤ _))

include h

theorem start_le (n : Nat) : time 0 ≤ time n := by
  induction n with
  | zero => exact Nat.le_refl _
  | succ n ih => exact Nat.le_trans ih (h.forward n)

theorem lt_ticks_iff (n : Nat) :
    UInt64.ofNat (time n) - UInt64.ofNat (time 0) < ticks ↔ ¬Enough time ticks n := by
  have hstart := h.start_le n
  rw [UInt64.lt_iff_toNat_lt, UInt64.toNat_sub, UInt64.toNat_ofNat',
    UInt64.toNat_ofNat', Enough, UInt64.size]
  omega

theorem lookAgain_eq (ticks : UInt64) (n : Nat) :
    lookAgain read ticks (UInt64.ofNat (time 0)) (s n) =
      .ok (if Enough time ticks n then some () else none) (s (n + 1)) := by
  unfold lookAgain
  rw [bind_of_ok (h.shown n)]
  by_cases henough : Enough time ticks n
  · rw [if_pos henough, if_neg ((h.lt_ticks_iff n).not.mpr (not_not.mpr henough))]
    rfl
  · rw [if_neg henough, if_pos ((h.lt_ticks_iff n).mpr henough)]
    rfl

theorem poll_of_early {next count : Nat}
    (hearly : ∀ n, next ≤ n → n < next + count → ¬Enough time ticks n) (bound : Nat) :
    poll (lookAgain read ticks (UInt64.ofNat (time 0))) (count + bound) (s next) =
      poll (lookAgain read ticks (UInt64.ofNat (time 0))) bound (s (next + count)) := by
  induction count generalizing next with
  | zero => rw [Nat.zero_add, Nat.add_zero]
  | succ count ih =>
      have hlook := h.lookAgain_eq ticks next
      rw [if_neg (hearly next (Nat.le_refl _) (by omega))] at hlook
      rw [Nat.add_right_comm, poll_of_none hlook,
        ih fun n hle hlt => hearly n (by omega) (by omega), Nat.add_right_comm, Nat.add_assoc]

theorem exhausted_of_early {bound : Nat}
    (hearly : ∀ n, 1 ≤ n → n ≤ bound → ¬Enough time ticks n) :
    waitTicksWithin read ticks bound (s 0) = .error .exhausted (s (bound + 1)) := by
  unfold waitTicksWithin
  rw [bind_of_ok (h.shown 0)]
  have hwithin (n : Nat) (hle : 1 ≤ n) (hlt : n < 1 + bound) : ¬Enough time ticks n :=
    hearly n hle (by omega)
  have hpoll := h.poll_of_early hwithin 0
  rw [Nat.add_zero, Nat.add_comm 1 bound] at hpoll
  exact hpoll

/-!
# Where a delay ends
-/

theorem endsAt {last : Nat} (hpos : 1 ≤ last) (henough : Enough time ticks last)
    (hearly : ∀ n, 1 ≤ n → n < last → ¬Enough time ticks n) : EndsAt read ticks s last := by
  intro bound
  split
  · obtain ⟨rest, rfl⟩ := Nat.exists_eq_add_of_le ‹last ≤ bound›
    have hlook := h.lookAgain_eq ticks last
    rw [if_pos henough] at hlook
    unfold waitTicksWithin
    rw [bind_of_ok (h.shown 0), show last + rest = (last - 1) + (rest + 1) by omega,
      h.poll_of_early (fun n hle hlt => hearly n hle (by omega)),
      show 0 + 1 + (last - 1) = last by omega]
    exact poll_of_some hlook rest
  · exact h.exhausted_of_early fun n hle hbound => hearly n hle (by omega)

theorem endsAt_one (henough : Enough time ticks 1) : EndsAt read ticks s 1 :=
  h.endsAt (Nat.le_refl 1) henough fun _ hpos hlt => absurd hpos (Nat.not_le.mpr hlt)

theorem exists_endsAt_of_ok {bound : Nat} {t : σ}
    (hrun : waitTicksWithin read ticks bound (s 0) = .ok () t) :
    ∃ last, EndsAt read ticks s last ∧ last ≤ bound ∧ t = s (last + 1) ∧
      Enough time ticks last := by
  by_cases hever : ∃ n, 1 ≤ n ∧ Enough time ticks n
  · rcases Nat.find_spec hever with ⟨hpos, henough⟩
    have hends := h.endsAt hpos henough fun n hn hlt hearly =>
      Nat.find_min hever hlt ⟨hn, hearly⟩
    have hbound := hends bound
    rw [hrun] at hbound
    split at hbound
    · cases hbound
      exact ⟨_, hends, ‹_›, rfl, henough⟩
    · cases hbound
  · rw [h.exhausted_of_early fun n hn _ henough => hever ⟨n, hn, henough⟩] at hrun
    cases hrun

theorem add_le_of_enough {n : Nat} (henough : Enough time ticks n) :
    time 0 + ticks.toNat ≤ time n := by
  have hstart := h.start_le n
  have hshown := Nat.mod_le (time n - time 0) UInt64.size
  unfold Enough at henough
  omega

theorem add_le_of_endsAt {last : Nat} (hends : EndsAt read ticks s last) :
    time 0 + ticks.toNat ≤ time last := by
  rcases h.exists_endsAt_of_ok (hends.ok _ (Nat.le_refl _)) with ⟨found, hfound, -, -, henough⟩
  rw [hends.unique hfound]
  exact h.add_le_of_enough henough

end Readings
end Interhart
