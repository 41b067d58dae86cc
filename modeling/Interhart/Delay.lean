import Interhart.Outcome

/-!
# Delays

A delay reads a clock until enough ticks have gone by since the first reading.  Elapsed
ticks are differences of words, so the clock may wrap around meanwhile.
-/

namespace Interhart

inductive TimeUnit
  | microseconds
  | milliseconds
deriving DecidableEq

def TimeUnit.perSecond : TimeUnit → Nat
  | .microseconds => 1000000
  | .milliseconds => 1000

/-- The ticks in an amount of time, rounded down and at most the largest word. -/
def ticksOf (frequency amount : UInt64) (unit : TimeUnit) : UInt64 :=
  UInt64.ofNat (min (frequency.toNat * amount.toNat / unit.perSecond) (UInt64.size - 1))

def waitTicks {m : Type → Type} [Monad m] [MonadExceptOf Exit m] (read : m UInt64)
    (ticks : UInt64) : m Unit := do
  let start ← read
  poll (do
    let now ← read
    pure (if now - start < ticks then none else some ())) patience

end Interhart
