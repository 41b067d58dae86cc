import Interhart.Ipi.System

/-!
# Sending and processing

A send puts its event into the slots of the harts it reaches, one after the other in
ascending order, and interrupts each of them at once.  After that the sender of a
synchronous event waits until all these slots are empty.

A hart that processes its slot first clears its interrupt, then carries out the event
it finds, and at last empties the slot unless another event has come to stand there.
A hart that parks leaves the available harts and empties its slot beforehand.

Sending and processing are given a handler `others` for the calls that other harts make
meanwhile; `carryOut` ties the knot for calls nested up to a given depth.
-/

namespace Interhart
namespace Ipi

variable {κ σ : Type}

def register [DecidableEq κ] (env : Environment κ σ) (controller : κ) : Run κ σ Unit := do
  let present := ((← get).dispatcher.controller).getD controller
  onDispatcher fun d => { d with controller := some present }
  if present = controller then
    onOutside (env.log ⟨.debug, s!"IPI device: {env.name controller}"⟩)
  else
    onOutside (env.log ⟨.debug,
      s!"IPI device {env.name controller} ignored, {env.name present} is already registered"⟩)

def requireController : Run κ σ κ := do
  match (← get).dispatcher.controller with
  | some controller => pure controller
  | none => throw (.refused .noDevice)

def makeAvailable (hart : Nat) : Run κ σ Unit := do
  onDispatcher fun d => { d with available := d.available.insert hart }
  note (.madeAvailable hart)

def makeUnavailable (hart : Nat) : Run κ σ Unit := do
  onDispatcher fun d => { d with available := d.available.erase hart }
  note (.madeUnavailable hart)

def clearInterrupt (env : Environment κ σ) (controller : κ) (hart : Nat) : Run κ σ Unit := do
  onOutside (env.clear controller hart)
  note (.cleared hart)

def tryBringUp (env : Environment κ σ) (hart : Nat) : Run κ σ (Except Error Unit) := do
  match (← get).dispatcher.controller with
  | none => return .error .noDevice
  | some controller =>
      if hart < hartLimit then
        onDispatcher (·.setSlot hart none)
        note (.reset hart)
        match env.refusal controller hart (← get).outside with
        | some error => return .error error
        | none =>
            clearInterrupt env controller hart
            makeAvailable hart
            note (.broughtUp hart)
            return .ok ()
      else return .error .invalidArgument

def bringUp (env : Environment κ σ) (hart : Nat) : Run κ σ Unit := do
  orRefuse (← tryBringUp env hart)

/-!
# Sending
-/

section Send

variable (env : Environment κ σ) (others : List Call → Run κ σ Unit)

def post (controller : κ) (origin : Nat) (event : Event) (hart : Nat) : Run κ σ Unit := do
  onDispatcher (·.setSlot hart (some event))
  note (.stored origin hart event)
  let calls ← onOutside (env.raise controller hart)
  note (.raised hart)
  others calls
  onOutside (env.log ⟨.trace, s!"IPI {event.name}: hart {origin} -> hart {hart}"⟩)

/-- Waits until the slot of a hart is empty.  As the other harts run inline, nobody is
left to empty it. -/
def await (hart : Nat) : Run κ σ Unit := do
  if ((← get).dispatcher.slots hart).isSome then throw .stuck

/-- Sends an event from a hart to those of the targets that are available, or to all available
harts.  Without a controller the event is dropped. -/
def deliver (origin : Nat) (targets : Option HartSet) (event : Event) : Run κ σ Unit := do
  let dispatcher := (← get).dispatcher
  match dispatcher.controller with
  | none => onOutside (env.log ⟨.trace, s!"IPI {event.name} dropped: no device"⟩)
  | some controller =>
      let harts := (dispatcher.reached origin targets).toList
      harts.forM (post env others controller origin event)
      if event.isSynchronous then harts.forM await

def trySend (origin : Nat) (targets : Option HartSet) :
    Option Event → Run κ σ (Except Error Unit)
  | none => return .error .invalidArgument
  | some event => do
      deliver env others origin targets event
      return .ok ()

def send (origin : Nat) (targets : Option HartSet) (event : Option Event) : Run κ σ Unit := do
  orRefuse (← trySend env others origin targets event)

end Send

/-!
# Processing
-/

inductive Ending
  | resumed
  | parked
deriving DecidableEq, Repr

section Process

variable (env : Environment κ σ) (others : List Call → Run κ σ Unit)

def clearPending (hart : Nat) : Run κ σ Unit := do
  match (← get).dispatcher.controller with
  | some controller => clearInterrupt env controller hart
  | none => pure ()

/-- Empties the slot of a hart unless it holds another event than the one seen. -/
def consume (hart : Nat) (seen : Event) : Run κ σ Unit := onDispatcher (·.consumed hart seen)

def effect (hart : Nat) (event : Event) : Run κ σ Unit := do
  note (.performed hart event)
  let calls ← onOutside (env.perform hart event)
  others calls

def drain (hart : Nat) : Run κ σ Ending := do
  note (.entered hart)
  clearPending env hart
  match (← get).dispatcher.slots hart with
  | none =>
      note (.left hart)
      return .resumed
  | some .halt =>
      makeUnavailable hart
      consume hart .halt
      effect env others hart .halt
      note (.left hart)
      return .parked
  | some event =>
      effect env others hart event
      consume hart event
      note (.left hart)
      return .resumed

def process (hart : Nat) : Run κ σ Unit := do
  if (← drain env others hart) = .parked then throw .parked

end Process

/-!
# Calls of other harts

A hart that parks ends its own processing and nothing else, and one whose send is refused
goes on.  A breakdown of the surroundings ends everything that is under way.
-/

def call (env : Environment κ σ) (others : List Call → Run κ σ Unit) : Call → Run κ σ Unit
  | .process hart => discard (drain env others hart)
  | .send origin targets event => do
      let answer ← trySend env others origin targets event
      onOutside (env.returned answer)
  | .bringUp hart => discard (tryBringUp env hart)
  | .makeAvailable hart => makeAvailable hart
  | .makeUnavailable hart => makeUnavailable hart

/-- Makes calls one after the other, with calls nested in them up to a depth. -/
def carryOut (env : Environment κ σ) : Nat → List Call → Run κ σ Unit
  | 0, calls => if calls.isEmpty then pure () else throw .exhausted
  | depth + 1, calls => calls.forM (call env (carryOut env depth))

@[simp] theorem carryOut_nil (env : Environment κ σ) (depth : Nat) :
    carryOut env depth [] = pure () := by
  cases depth <;> rfl

end Ipi
end Interhart
