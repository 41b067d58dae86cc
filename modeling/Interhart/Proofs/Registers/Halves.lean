import Interhart.Registers
import Mathlib.Algebra.Group.Nat.Defs

/-!
# Reading a register by halves

A counter that is read by halves goes on between the accesses.  If its high half has not
changed from the first access of a round to the last, the round shows what the counter held
when its low half was read.  If it has changed, the low half has begun anew, and there is no
time for another change during the next round.
-/

namespace Interhart

/-!
# Counters at work
-/

section Counting

variable {v₀ v₁ v₂ : UInt64}

theorem toNat_highHalf (value : UInt64) :
    (highHalf value).toNat = value.toNat / UInt32.size := by
  have hvalue := value.toNat_lt
  simp only [highHalf, UInt64.toNat_toUInt32, UInt64.toNat_shiftRight, UInt32.size]
  rw [show (32 : UInt64).toNat % 64 = 32 from rfl, Nat.shiftRight_eq_div_pow]
  omega

theorem toNat_lowHalf (value : UInt64) : (lowHalf value).toNat = value.toNat % UInt32.size := by
  simp only [lowHalf, UInt64.toNat_toUInt32, UInt32.size]

theorem toNat_later (early late : UInt64) :
    late.toNat = (early.toNat + (late - early).toNat) % UInt64.size := by
  have hearly := early.toNat_lt
  have hlate := late.toNat_lt
  rw [UInt64.toNat_sub]
  simp only [UInt64.size]
  omega

theorem highHalf_between (h₁ : (v₁ - v₀).toNat < 2 ^ 29) (h₂ : (v₂ - v₁).toNat < 2 ^ 29)
    (hsame : highHalf v₀ = highHalf v₂) : highHalf v₁ = highHalf v₀ := by
  have hv₀ := v₀.toNat_lt
  have hv₁ := toNat_later v₀ v₁
  have hv₂ := toNat_later v₁ v₂
  have hhigh := congrArg UInt32.toNat hsame
  rw [toNat_highHalf, toNat_highHalf] at hhigh
  apply UInt32.toNat_inj.mp
  rw [toNat_highHalf, toNat_highHalf]
  simp only [UInt64.size, UInt32.size] at *
  omega

theorem lowHalf_of_changed (h₁ : (v₁ - v₀).toNat < 2 ^ 29) (h₂ : (v₂ - v₁).toNat < 2 ^ 29)
    (hchanged : highHalf v₀ ≠ highHalf v₂) : (lowHalf v₂).toNat < 2 ^ 30 := by
  have hv₀ := v₀.toNat_lt
  have hv₁ := toNat_later v₀ v₁
  have hv₂ := toNat_later v₁ v₂
  have hhigh : (highHalf v₀).toNat ≠ (highHalf v₂).toNat := fun h =>
    hchanged (UInt32.toNat_inj.mp h)
  rw [toNat_highHalf, toNat_highHalf] at hhigh
  rw [toNat_lowHalf]
  simp only [UInt64.size, UInt32.size] at *
  omega

theorem halves_later {early late : UInt64}
    (h : (lowHalf early).toNat + (late - early).toNat < UInt32.size) :
    highHalf late = highHalf early ∧
      (lowHalf late).toNat = (lowHalf early).toNat + (late - early).toNat := by
  have hearly := early.toNat_lt
  have hlate := toNat_later early late
  rw [toNat_lowHalf] at h
  constructor
  · apply UInt32.toNat_inj.mp
    rw [toNat_highHalf, toNat_highHalf]
    simp only [UInt64.size, UInt32.size] at *
    omega
  · rw [toNat_lowHalf, toNat_lowHalf]
    simp only [UInt64.size, UInt32.size] at *
    omega

theorem halves_of_small {bound : Nat} (hbound : bound ≤ 2 ^ 31) (h : (v₁ - v₀).toNat < 2 ^ 29)
    (hsmall : (lowHalf v₀).toNat < bound) :
    highHalf v₁ = highHalf v₀ ∧ (lowHalf v₁).toNat < bound + 2 ^ 29 := by
  have hroom : (lowHalf v₀).toNat + (v₁ - v₀).toNat < UInt32.size := by
    simp only [UInt32.size]
    omega
  rcases halves_later hroom with ⟨hhigh, hlow⟩
  refine ⟨hhigh, ?_⟩
  rw [hlow]
  omega

end Counting

/-!
# Rounds of accesses
-/

section Rounds

variable {σ : Type} {readHigh readLow : EStateM Exit σ UInt32} {shown : σ → UInt64}

theorem attempt_of_reads {s₀ s₁ s₂ s₃ : σ} {high low again : UInt32}
    (hhigh : readHigh s₀ = .ok high s₁) (hlow : readLow s₁ = .ok low s₂)
    (hagain : readHigh s₂ = .ok again s₃) :
    (do
      let high ← readHigh
      let low ← readLow
      let again ← readHigh
      pure (if high = again then some (joinHalves high low) else none)) s₀ =
      EStateM.Result.ok (if high = again then some (joinHalves high low) else none) s₃ := by
  rw [bind_of_ok hhigh, bind_of_ok hlow, bind_of_ok hagain]
  rfl

theorem readHalves_of_steady {s₀ s₁ s₂ s₃ : σ} {high low : UInt32}
    (hhigh : readHigh s₀ = .ok high s₁) (hlow : readLow s₁ = .ok low s₂)
    (hagain : readHigh s₂ = .ok high s₃) :
    readHalves readHigh readLow s₀ = .ok (joinHalves high low) s₃ := by
  have hattempt := attempt_of_reads hhigh hlow hagain
  rw [if_pos rfl] at hattempt
  exact poll_of_some hattempt (UInt64.size - 1)

/-- Accesses to a register in rounds of three, each in the state that it begins in.
It gives a half of what the register holds just then: the high half, the low one, and
the high one again. -/
structure Rounds (readHigh readLow : EStateM Exit σ UInt32) (shown : σ → UInt64) (s : Nat → σ) :
    Prop where
  high : ∀ n, n % 3 ≠ 1 → readHigh (s n) = .ok (highHalf (shown (s n))) (s (n + 1))
  low : ∀ n, n % 3 = 1 → readLow (s n) = .ok (lowHalf (shown (s n))) (s (n + 1))

/-- A register that goes on by less than `2 ^ 29` from access to access is read within two
rounds.  What is read is what it held when its low half was read for the last time. -/
theorem readHalves_of_rounds {s : Nat → σ} (h : Rounds readHigh readLow shown s)
    (hpace : ∀ n < 5, (shown (s (n + 1)) - shown (s n)).toNat < 2 ^ 29) :
    readHalves readHigh readLow (s 0) = .ok (shown (s 1)) (s 3) ∨
      readHalves readHigh readLow (s 0) = .ok (shown (s 4)) (s 6) := by
  unfold readHalves
  rw [show patience = (UInt64.size - 2) + 1 + 1 from rfl]
  have hfirst := attempt_of_reads (h.high 0 (by decide)) (h.low 1 rfl) (h.high 2 (by decide))
  have hsecond := attempt_of_reads (h.high 3 (by decide)) (h.low 4 rfl) (h.high 5 (by decide))
  by_cases hsame : highHalf (shown (s 0)) = highHalf (shown (s 2))
  · left
    rw [if_pos hsame, ← highHalf_between (hpace 0 (by decide)) (hpace 1 (by decide)) hsame,
      joinHalves_halves] at hfirst
    exact poll_of_some hfirst _
  · right
    rw [if_neg hsame] at hfirst
    -- The low half has begun anew, so the second round sees one high half throughout.
    have h₂ := lowHalf_of_changed (hpace 0 (by decide)) (hpace 1 (by decide)) hsame
    have h₃ := halves_of_small (by decide) (hpace 2 (by decide)) h₂
    have h₄ := halves_of_small (by decide) (hpace 3 (by decide)) h₃.2
    have h₅ := halves_of_small (by decide) (hpace 4 (by decide)) h₄.2
    rw [if_pos (h₅.1.trans h₄.1).symm, ← h₄.1, joinHalves_halves] at hsecond
    rw [poll_of_none hfirst]
    exact poll_of_some hsecond _

end Rounds

end Interhart
