import Interhart.Proofs.Machine.Binding
import Interhart.Proofs.Machine.Changes

/-!
# What is written once

Harts read the configuration of a machine without a lock, so what they have found once must
never change.  Each of its cells keeps the first content it gets, whatever the machine is asked
afterwards and however that ends, and a device never comes to follow itself.
-/

namespace Interhart

/-- The cells of a machine that hold nothing at first. -/
inductive Cell
  | controller
  | timer
  | reference (number : Nat)
  | delta (number : Nat)
  | frequency (driver : DriverId)
  | slot (binder : Binder) (hart : Nat)

abbrev Cell.Content : Cell → Type
  | controller => Controller
  | timer => TimerDevice
  | reference _ => Nat
  | delta _ => UInt64
  | frequency _ => UInt64
  | slot _ _ => Nat

namespace Machine

/-- What a cell holds, if anything.  A driver with the frequency zero knows of none. -/
def content? (m : Machine) : (cell : Cell) → Option cell.Content
  | .controller => m.dispatcher.controller
  | .timer => m.outside.timer
  | .reference number => m.outside.mtimers[number]?.bind (·.reference)
  | .delta number => m.delta? number
  | .frequency driver =>
      if (m.outside.mtimerDrivers driver).frequency = 0 then none
      else some (m.outside.mtimerDrivers driver).frequency
  | .slot binder hart => (binder.table m.outside).get? hart

def NoneFollowsItself (m : Machine) : Prop :=
  ∀ number, m.content? (.reference number) ≠ some number

def Retained (m later : Machine) : Prop :=
  ∀ cell content, m.content? cell = some content → later.content? cell = some content

end Machine

/-!
# Single changes
-/

structure Mtimer.Device.Settles (place : Nat) (device device' : Device) : Prop where
  reference : ∀ followed, device.reference = some followed → device'.reference = some followed
  delta : ∀ moved, device.delta = some moved → device'.delta = some moved
  other : device.reference ≠ some place → device'.reference ≠ some place

theorem Mtimer.Device.Settles.refl (place : Nat) (device : Device) :
    Settles place device device :=
  ⟨fun _ h => h, fun _ h => h, id⟩

theorem Mtimer.Device.settles_following {place reference : Nat} (hother : place ≠ reference)
    (device : Device) : Settles place device (device.following reference) := by
  refine ⟨fun followed h => ?_, fun _ h => h, fun h => ?_⟩
  · rw [following, h]
    rfl
  · cases hfollowed : device.reference with
    | none =>
        rw [following, hfollowed]
        exact fun hsame => hother (Option.some.inj hsame).symm
    | some followed =>
        rw [following, hfollowed]
        rwa [hfollowed] at h

theorem exists_settles_modify {number : Nat} {change : Mtimer.Device → Mtimer.Device}
    (devices : List Mtimer.Device) (place : Nat)
    (hchange : ∀ device, Mtimer.Device.Settles number device (change device)) :
    ∃ change', (devices.modify number change)[place]? = devices[place]?.map change' ∧
      ∀ device, Mtimer.Device.Settles place device (change' device) := by
  refine ⟨fun device => if number = place then change device else device,
    List.getElem?_modify .., fun device => ?_⟩
  dsimp only
  split
  · subst place
    exact hchange device
  · exact .refl place device

namespace Bench.Change

variable {b b' : Bench} (h : Change b b')

include h

theorem timer {device : TimerDevice} (hdevice : b.timer = some device) :
    b'.timer = some device := by
  cases h with
  | registering candidate =>
      change some (b.timer.getD candidate) = some device
      rw [hdevice]
      rfl
  | _ => exact hdevice

theorem frequency {driver : DriverId} (hknown : (b.mtimerDrivers driver).frequency ≠ 0) :
    (b'.mtimerDrivers driver).frequency = (b.mtimerDrivers driver).frequency := by
  cases h with
  | bindingMtimer other harts number hvacant =>
      change (if driver = other then _ else b.mtimerDrivers driver).frequency = _
      split
      · rfl
      · rfl
  | tuning other frequency =>
      change (if driver = other then _ else b.mtimerDrivers driver).frequency = _
      rw [if_neg hknown]
      split
      · rfl
      · rfl
  | _ => rfl

theorem slot {binder : Binder} {hart number : Nat}
    (hbound : (binder.table b).get? hart = some number) :
    (binder.table b').get? hart = some number := by
  cases h with
  | bindingMswi driver harts entry hvacant =>
      cases binder with
      | mtimer other => exact hbound
      | mswi other =>
          change (if other = driver then _ else b.mswiDrivers other).devices.get? hart = _
          split
          · subst other
            exact HartTable.get?_assign_of_vacant hvacant hbound entry
          · exact hbound
  | bindingMtimer driver harts entry hvacant =>
      cases binder with
      | mswi other => exact hbound
      | mtimer other =>
          change (if other = driver then _ else b.mtimerDrivers other).devices.get? hart = _
          split
          · subst other
            exact HartTable.get?_assign_of_vacant hvacant hbound entry
          · exact hbound
  | tuning driver frequency =>
      cases binder with
      | mswi other => exact hbound
      | mtimer other =>
          change (if other = driver then _ else b.mtimerDrivers other).devices.get? hart = _
          split
          · exact hbound
          · exact hbound
  | _ =>
      cases binder with
      | mswi driver => exact hbound
      | mtimer driver => exact hbound

theorem mtimers (place : Nat) :
    ∃ change, b'.mtimers[place]? = b.mtimers[place]?.map change ∧
      ∀ device, Mtimer.Device.Settles place device (change device) := by
  cases h with
  | following number reference hother =>
      exact exists_settles_modify _ place (Mtimer.Device.settles_following hother)
  | beginning number =>
      exact exists_settles_modify _ place fun _ => ⟨fun _ h => h, fun _ h => h, id⟩
  | adjusting number delta =>
      refine exists_settles_modify _ place fun device => ⟨fun _ h => h,
        fun moved hmoved => ?_, id⟩
      change some (device.delta.getD delta) = some moved
      rw [hmoved]
      rfl
  | _ => exact ⟨id, (congrFun Option.map_id _).symm, .refl place⟩

theorem bind_mtimers {α : Type} {field : Mtimer.Device → Option α}
    (hfield : ∀ place device device', Mtimer.Device.Settles place device device' →
      ∀ value, field device = some value → field device' = some value)
    {place : Nat} {value : α} (hvalue : b.mtimers[place]?.bind field = some value) :
    b'.mtimers[place]?.bind field = some value := by
  rcases h.mtimers place with ⟨change, hdevice, hsettles⟩
  rcases Option.bind_eq_some_iff.mp hvalue with ⟨device, hfound, hsettled⟩
  have hstands := hfield place _ _ (hsettles device) value hsettled
  refine Option.bind_eq_some_iff.mpr ⟨change device, ?_, hstands⟩
  exact hdevice.trans (congrArg _ hfound)

end Bench.Change

namespace Machine

theorem retained_within {m : Machine} {b : Bench} (h : Bench.Change m.outside b) :
    Retained m (m.within b) := by
  intro cell content hwritten
  cases cell with
  | controller => exact hwritten
  | timer => exact h.timer hwritten
  | frequency driver =>
      have hknown : (m.outside.mtimerDrivers driver).frequency ≠ 0 := by
        intro hzero
        rw [content?, if_pos hzero] at hwritten
        cases hwritten
      change (if (b.mtimerDrivers driver).frequency = 0 then none
        else some (b.mtimerDrivers driver).frequency) = _
      rw [h.frequency hknown]
      exact hwritten
  | slot binder hart => exact h.slot hwritten
  | reference number => exact h.bind_mtimers (fun _ _ _ hsettles => hsettles.reference) hwritten
  | delta number => exact h.bind_mtimers (fun _ _ _ hsettles => hsettles.delta) hwritten

theorem retained_of_change {m m' : Machine} (h : Change m m') : Retained m m' := by
  cases h with
  | outside h => exact retained_within h
  | inside dispatcher history hcontroller =>
      intro cell content hwritten
      cases cell with
      | controller => exact hcontroller.trans hwritten
      | _ => exact hwritten
  | registering controller =>
      intro cell content hwritten
      cases cell with
      | controller => exact congrArg (fun present => some (present.getD controller)) hwritten
      | _ => exact hwritten

theorem stable_retained (m : Machine) : Stable (Retained m) :=
  fun _ _ hchange hretained cell content hwritten =>
    retained_of_change hchange cell content (hretained cell content hwritten)

theorem stable_noneFollowsItself : Stable NoneFollowsItself := by
  intro m m' hchange hm
  cases hchange with
  | inside dispatcher history hcontroller => exact hm
  | registering controller => exact hm
  | outside h =>
      intro number hself
      rcases h.mtimers number with ⟨change, hdevice, hsettles⟩
      rcases Option.bind_eq_some_iff.mp hself with ⟨device', hfound', hreference⟩
      rcases Option.map_eq_some_iff.mp (hdevice.symm.trans hfound') with ⟨device, hfound, rfl⟩
      refine (hsettles device).other (fun hbefore => hm number ?_) hreference
      exact Option.bind_eq_some_iff.mpr ⟨device, hfound, hbefore⟩

/-!
# Runs
-/

def commanded (m : Machine) : List Command → Machine
  | [] => m
  | command :: commands => (m.step command).2.commanded commands

theorem commanded_append (m : Machine) (earlier later : List Command) :
    m.commanded (earlier ++ later) = (m.commanded earlier).commanded later := by
  induction earlier generalizing m with
  | nil => rfl
  | cons command earlier ih => exact ih (m.step command).2

theorem Stable.commanded {invariant : Machine → Prop} (h : Stable invariant) {m : Machine}
    (hm : invariant m) (commands : List Command) : invariant (m.commanded commands) := by
  induction commands generalizing m with
  | nil => exact hm
  | cons command commands ih => exact ih (h.step hm command)

/-- What a cell holds at some time in a run is never written over, and no device
comes to follow itself. -/
theorem written_once {start : Machine} (hstart : start.NoneFollowsItself)
    (earlier later : List Command) :
    (start.commanded earlier).NoneFollowsItself ∧
      ∀ cell content, (start.commanded earlier).content? cell = some content →
        (start.commanded (earlier ++ later)).content? cell = some content := by
  constructor
  · exact stable_noneFollowsItself.commanded hstart earlier
  · rw [commanded_append]
    have hretained : Retained (start.commanded earlier) (start.commanded earlier) :=
      fun _ _ hwritten => hwritten
    exact (stable_retained _).commanded hretained later

def rivalMachine : Machine :=
  { outside :=
    { mswis := [⟨0x10000, 0x1000, ⟨0, 2⟩, []⟩]
      mtimers :=
        [{ config := ⟨0x1000, 8, 0x2000, 16, 1000, ⟨2, 2⟩, true, false, []⟩ },
          { config := ⟨0x3000, 8, 0x4000, 16, 2000, ⟨0, 2⟩, true, false, []⟩ },
          { config := ⟨0x5000, 8, 0x6000, 16, 2000, ⟨1, 1⟩, true, false, []⟩ }]
      clocks := [⟨1000000, 0, 1, 0⟩]
      bus := { memory := fun a => if a = 0x1000 then 5000 else 0 } } }

def configuring : List Command :=
  [.ipi (.register (.scripted 0)), .mtimerDriver boardDriver (.bind 1 none),
    .mtimer 1 (.setReference 0), .mtimer 1 (.sync 0)]

def overwriting : List Command :=
  [.mswiDriver boardDriver (.bind 0), .timer (.register (.clock 0)),
    .mtimerDriver boardDriver (.bind 0 none), .mtimerDriver boardDriver (.bind 2 none),
    .mtimer 0 (.setReference 0), .mtimer 1 (.setReference 1), .mtimer 1 (.setReference 2),
    .bench (.poke64 0x1000 9000), .mtimer 1 (.sync 1)]

theorem written_once_rivalMachine :
    let later := rivalMachine.commanded (configuring ++ overwriting)
    later.content? .controller = some (.scripted 0) ∧ later.content? .timer = some (.mtimer 0) ∧
      later.content? (.slot (.mtimer 0) 1) = some 1 ∧ later.content? (.frequency 0) =
        some 2000 ∧
      later.content? (.reference 1) = some 0 ∧ later.content? (.delta 1) = some 5000 ∧
      later.NoneFollowsItself := by
  have hstart : rivalMachine.NoneFollowsItself
    | 0 => nofun
    | 1 => nofun
    | 2 => nofun
    | _ + 3 => nofun
  have hkept := (written_once hstart configuring overwriting).2
  refine ⟨hkept _ _ ?_, hkept _ _ ?_, hkept _ _ ?_, hkept _ _ ?_, hkept _ _ ?_,
    hkept _ _ ?_, ?_⟩
  · decide +kernel
  · decide +kernel
  · decide +kernel
  · decide +kernel
  · decide +kernel
  · decide +kernel
  · exact (written_once hstart (configuring ++ overwriting) []).1

end Machine
end Interhart
