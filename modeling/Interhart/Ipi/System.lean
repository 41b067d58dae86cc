import Interhart.Ipi.Event
import Interhart.Log

/-!
# The dispatcher and what surrounds it

A dispatcher knows the controller that interrupts harts, the slot of each hart, and the
harts that may be interrupted.  A system is a dispatcher, the history of what happened
at it, and the state of everything around it.

What surrounds the dispatcher is given by an environment: what the controllers do, and
what the other harts do while the controller interrupts them and while they carry out
events.  Harts run inline: the calls that an environment answers with are made before
the interrupting call goes on.
-/

namespace Interhart
namespace Ipi

structure Dispatcher (κ : Type) where
  controller : Option κ := none
  slots : Nat → Option Event := fun _ => none
  available : HartSet := .empty

namespace Dispatcher

variable {κ : Type}

instance : Inhabited (Dispatcher κ) := ⟨{}⟩

def setSlot (dispatcher : Dispatcher κ) (hart : Nat) (content : Option Event) : Dispatcher κ :=
  { dispatcher with slots := fun h => if h = hart then content else dispatcher.slots h }

def consumed (dispatcher : Dispatcher κ) (hart : Nat) (seen : Event) : Dispatcher κ :=
  if dispatcher.slots hart = some seen then dispatcher.setSlot hart none else dispatcher

/-- The harts that a send from `origin` reaches: those it asks for, or all, as far as they are
available, without the origin itself. -/
def reached (dispatcher : Dispatcher κ) (origin : Nat) (targets : Option HartSet) : HartSet :=
  match targets with
  | some targets => (targets.inter dispatcher.available).erase origin
  | none => dispatcher.available.erase origin

@[simp] theorem slots_setSlot_self (dispatcher : Dispatcher κ) (hart : Nat)
    (content : Option Event) : (dispatcher.setSlot hart content).slots hart = content :=
  if_pos rfl

theorem slots_setSlot_of_ne (dispatcher : Dispatcher κ) {hart other : Nat}
    (content : Option Event) (h : other ≠ hart) :
    (dispatcher.setSlot hart content).slots other = dispatcher.slots other := if_neg h

@[simp] theorem controller_setSlot (dispatcher : Dispatcher κ) (hart : Nat)
    (content : Option Event) :
    (dispatcher.setSlot hart content).controller = dispatcher.controller := rfl

@[simp] theorem available_setSlot (dispatcher : Dispatcher κ) (hart : Nat)
    (content : Option Event) :
    (dispatcher.setSlot hart content).available = dispatcher.available := rfl

@[simp] theorem controller_consumed (dispatcher : Dispatcher κ) (hart : Nat) (seen : Event) :
    (dispatcher.consumed hart seen).controller = dispatcher.controller := by
  unfold consumed
  split <;> rfl

@[simp] theorem available_consumed (dispatcher : Dispatcher κ) (hart : Nat) (seen : Event) :
    (dispatcher.consumed hart seen).available = dispatcher.available := by
  unfold consumed
  split <;> rfl

theorem consumed_of_full {dispatcher : Dispatcher κ} {hart : Nat} {seen : Event}
    (h : dispatcher.slots hart = some seen) :
    dispatcher.consumed hart seen = dispatcher.setSlot hart none := if_pos h

theorem slots_consumed_self (dispatcher : Dispatcher κ) (hart : Nat) (seen : Event) :
    (dispatcher.consumed hart seen).slots hart =
      if dispatcher.slots hart = some seen then none else dispatcher.slots hart := by
  unfold consumed
  split
  · exact slots_setSlot_self dispatcher hart none
  · rfl

theorem slots_consumed_of_ne (dispatcher : Dispatcher κ) {hart other : Nat} (seen : Event)
    (h : other ≠ hart) :
    (dispatcher.consumed hart seen).slots other = dispatcher.slots other := by
  unfold consumed
  split
  · exact slots_setSlot_of_ne dispatcher none h
  · rfl

theorem mem_reached_iff {dispatcher : Dispatcher κ} {origin hart : Nat}
    {targets : Option HartSet} :
    hart ∈ dispatcher.reached origin targets ↔
      hart ≠ origin ∧ (∀ asked, targets = some asked → hart ∈ asked) ∧
        hart ∈ dispatcher.available := by
  cases targets with
  | none => simp [reached]
  | some asked => simp [reached]

end Dispatcher

structure System (κ σ : Type) where
  dispatcher : Dispatcher κ := {}
  /-- What has happened, the latest first. -/
  history : List Incident := []
  outside : σ

namespace System

variable {κ σ : Type}

def noting (s : System κ σ) (incident : Incident) : System κ σ :=
  { s with history := incident :: s.history }

def changing (s : System κ σ) (change : Dispatcher κ → Dispatcher κ) : System κ σ :=
  { s with dispatcher := change s.dispatcher }

def within (s : System κ σ) (outside : σ) : System κ σ := { s with outside := outside }

@[simp] theorem dispatcher_noting (s : System κ σ) (incident : Incident) :
    (s.noting incident).dispatcher = s.dispatcher := rfl

@[simp] theorem history_noting (s : System κ σ) (incident : Incident) :
    (s.noting incident).history = incident :: s.history := rfl

@[simp] theorem outside_noting (s : System κ σ) (incident : Incident) :
    (s.noting incident).outside = s.outside := rfl

@[simp] theorem dispatcher_changing (s : System κ σ) (change : Dispatcher κ → Dispatcher κ) :
    (s.changing change).dispatcher = change s.dispatcher := rfl

@[simp] theorem history_changing (s : System κ σ) (change : Dispatcher κ → Dispatcher κ) :
    (s.changing change).history = s.history := rfl

@[simp] theorem outside_changing (s : System κ σ) (change : Dispatcher κ → Dispatcher κ) :
    (s.changing change).outside = s.outside := rfl

@[simp] theorem dispatcher_within (s : System κ σ) (outside : σ) :
    (s.within outside).dispatcher = s.dispatcher := rfl

@[simp] theorem history_within (s : System κ σ) (outside : σ) :
    (s.within outside).history = s.history := rfl

@[simp] theorem outside_within (s : System κ σ) (outside : σ) :
    (s.within outside).outside = outside := rfl

end System

structure Environment (κ σ : Type) where
  name : κ → String
  /-- Interrupts a hart; the calls are those that harts make because of it. -/
  raise : κ → Nat → EStateM Exit σ (List Call)
  clear : κ → Nat → EStateM Exit σ Unit
  /-- Why a controller cannot interrupt a hart at all, if it cannot. -/
  refusal : κ → Nat → σ → Option Error
  /-- Carries out an event on a hart; the calls are those that harts make meanwhile. -/
  perform : Nat → Event → EStateM Exit σ (List Call)
  /-- Learns how a send that it asked for has ended. -/
  returned : Except Error Unit → EStateM Exit σ Unit
  log : LogRecord → EStateM Exit σ Unit

/-- Operations on a system.  What they did stays done when they end early. -/
abbrev Run (κ σ : Type) := EStateM Exit (System κ σ)

section Steps

variable {κ σ : Type}

def onOutside {α : Type} (step : EStateM Exit σ α) : Run κ σ α := fun s =>
  match s with
  | ⟨dispatcher, history, outside⟩ =>
      match step outside with
      | .ok value outside => .ok value ⟨dispatcher, history, outside⟩
      | .error exit outside => .error exit ⟨dispatcher, history, outside⟩

def onDispatcher (change : Dispatcher κ → Dispatcher κ) : Run κ σ Unit :=
  modify (·.changing change)

def note (incident : Incident) : Run κ σ Unit :=
  modify (·.noting incident)

/-!
# What the steps do

A step of the surroundings changes nothing but them, and the other two steps always
succeed and change one field each.
-/

theorem onOutside_of_ok {α : Type} {step : EStateM Exit σ α} {s : System κ σ} {value : α}
    {outside : σ} (h : step s.outside = .ok value outside) :
    onOutside step s = .ok value (s.within outside) := by
  cases s with
  | mk dispatcher history before =>
      simp only [onOutside]
      rw [show step before = _ from h]
      rfl

theorem onOutside_of_error {α : Type} {step : EStateM Exit σ α} {s : System κ σ} {exit : Exit}
    {outside : σ} (h : step s.outside = .error exit outside) :
    onOutside step s = .error exit (s.within outside) := by
  cases s with
  | mk dispatcher history before =>
      simp only [onOutside]
      rw [show step before = _ from h]
      rfl

theorem ok_of_onOutside {α : Type} {step : EStateM Exit σ α} {s t : System κ σ} {value : α}
    (h : onOutside step s = .ok value t) :
    ∃ outside, step s.outside = .ok value outside ∧ t = s.within outside := by
  cases hstep : step s.outside with
  | ok found outside =>
      rw [onOutside_of_ok hstep] at h
      cases h
      exact ⟨outside, rfl, rfl⟩
  | error exit outside =>
      rw [onOutside_of_error hstep] at h
      cases h

@[simp] theorem onDispatcher_apply (change : Dispatcher κ → Dispatcher κ) (s : System κ σ) :
    onDispatcher change s = .ok () (s.changing change) := rfl

@[simp] theorem note_apply (incident : Incident) (s : System κ σ) :
    (note incident : Run κ σ Unit) s = .ok () (s.noting incident) := rfl

end Steps
end Ipi
end Interhart
