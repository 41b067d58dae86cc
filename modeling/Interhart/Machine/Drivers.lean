import Interhart.Machine.Bench

/-!
# Binding devices

A driver takes a device on in fixed steps: the description is checked, its harts must be
free, its registers are protected in the domain, and only then are its harts bound.  A
refusal therefore leaves everything but the domain as it was.
-/

namespace Interhart
namespace Bench

def recordRegion (region : Region) : BenchM Unit := do
  let before := (← get).domain
  let after ← orRefuse (before.record region)
  modify fun b => { b with domain := after }
  if region ∉ before.regions then log (Domain.addedRecord region)

def protectRange (base size : UInt64) (largest : Nat) : BenchM Unit :=
  Domain.protectWith recordRegion base.toNat size.toNat largest

def requireVacant (table : HartTable Nat) (harts : HartRange) : BenchM Unit :=
  if table.isVacant harts then pure () else throw (.refused .invalidArgument)

/-!
# Software-interrupt devices
-/

def bindMswi (driver : DriverId) (number : Nat) : BenchM Unit := do
  let config ← mswi number
  orRefuse config.validate
  requireVacant ((← get).mswiDrivers driver).devices config.harts
  config.blocks.forM fun (base, size) => protectRange base size Mswi.alignment.toNat
  let table ← orRefuse
    (((← get).mswiDrivers driver).devices.bindRange config.harts number)
  setMswiDriver driver fun d => { d with devices := table }
  log config.boundRecord

/-!
# Timer devices
-/

/-- Lets a device follow another one.  The first reference stays, and
no device follows itself. -/
def setReference (number reference : Nat) : BenchM Unit := do
  let device ← mtimer number
  if number = reference then log device.config.selfReferenceRecord
  else setMtimer number fun d => { d with reference := some (d.reference.getD reference) }

def registerTimer (device : TimerDevice) (name : String) : BenchM Unit := do
  let present := ((← get).timer).getD device
  modify fun b => { b with timer := some present }
  if present = device then log ⟨.debug, s!"Timer device: {name}"⟩

def requireSameFrequency (config : Mtimer.Config) (reference : Option Nat) : BenchM Unit := do
  match reference with
  | some reference =>
      if (← mtimer reference).config.frequency = config.frequency then pure ()
      else throw (.refused .invalidArgument)
  | none => pure ()

def bindMtimer (driver : DriverId) (number : Nat) (reference : Option Nat) : BenchM Unit := do
  let config := (← mtimer number).config
  orRefuse config.validate
  requireSameFrequency config reference
  requireVacant ((← get).mtimerDrivers driver).devices config.harts
  (← orFault config.ranges).forM fun (base, size) => protectRange base size Mtimer.pieceLimit
  let table ← orRefuse
    (((← get).mtimerDrivers driver).devices.bindRange config.harts number)
  setMtimerDriver driver fun d => { d with devices := table }
  if let some reference := reference then setReference number reference
  setMtimerDriver driver fun d =>
    { d with frequency := if d.frequency = 0 then config.frequency else d.frequency }
  log config.boundRecord
  registerTimer (.mtimer driver) Mtimer.Driver.name

end Bench
end Interhart
