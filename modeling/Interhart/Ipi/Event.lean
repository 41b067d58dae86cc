import Interhart.HartSet

/-!
# Events between harts

A hart asks another one to do something by an event.  Each hart has one slot that holds
the event it has still to carry out.
-/

namespace Interhart
namespace Ipi

inductive Event
  | soft
  | fenceI
  | sfenceVma
  | halt
deriving DecidableEq, Repr

/-- Whether a sender waits until the event has been carried out. -/
def Event.isSynchronous : Event → Bool
  | .soft => false
  | .fenceI => true
  | .sfenceVma => true
  | .halt => true

def Event.name : Event → String
  | .soft => "Soft"
  | .fenceI => "FenceI"
  | .sfenceVma => "SfenceVma"
  | .halt => "Halt"

inductive Call
  | process (hart : Nat)
  /-- A hart sends an event to some harts, or to all available ones.  A call without
  an event is refused. -/
  | send (origin : Nat) (targets : Option HartSet) (event : Option Event)
  | bringUp (hart : Nat)
  | makeAvailable (hart : Nat)
  | makeUnavailable (hart : Nat)
deriving DecidableEq

inductive Incident
  | stored (origin hart : Nat) (event : Event)
  | raised (hart : Nat)
  | cleared (hart : Nat)
  | reset (hart : Nat)
  | entered (hart : Nat)
  /-- A hart has begun to carry out an event. -/
  | performed (hart : Nat) (event : Event)
  /-- A hart has finished processing its slot, or has parked. -/
  | left (hart : Nat)
  | broughtUp (hart : Nat)
  | madeAvailable (hart : Nat)
  | madeUnavailable (hart : Nat)
deriving DecidableEq

end Ipi
end Interhart
