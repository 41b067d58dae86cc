import Interhart.BootArguments
import Interhart.Machine.Timer

/-!
# Bringing a board up

The board's own drivers are the first of each kind.  The hart that boots cold binds all
devices of a kind before it comes up itself; every other hart only comes up.
-/

namespace Interhart
namespace Machine

open Bench

def boardDriver : DriverId := 0

def earlyInit (commandLine : String) : MachineM Unit := Ipi.onOutside do
  installConsole (BootArguments.ofCommandLine commandLine).logLimit
  log ⟨.info, s!"Platform: {(← get).board.name}"⟩

def bootIpi (hart : Nat) (cold : Bool) : MachineM Unit := do
  if cold then
    (List.range (← get).outside.mswis.length).forM (bindMswi boardDriver)
    discard Ipi.requireController
  bringUpIpi hart

/-- The reference that a device of the board follows: the board's time reference if there is
such a device, unless it is the device itself. -/
def referenceOf (b : Bench) (number : Nat) : Option Nat :=
  (b.board.timeReference.filter (· < b.mtimers.length)).filter (· ≠ number)

def bootTimer (hart : Nat) (cold : Bool) : MachineM Unit := do
  if cold then
    let b := (← get).outside
    (List.range b.mtimers.length).forM fun number =>
      Ipi.onOutside (bindMtimer boardDriver number (referenceOf b number))
    discard requireTimer
  bringUpTimer hart

end Machine
end Interhart
