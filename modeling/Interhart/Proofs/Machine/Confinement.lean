import Interhart.Proofs.Machine.Alignment
import Interhart.Proofs.Mswi.Copies

/-!
# Accesses stay in their blocks

A device may answer reads with anything, so what its driver does to registers is looked at in
surroundings that note down accesses and are free in their answers.  All accesses are aligned,
and lie in the copy of a register block that serves the hart: in the register of the hart
itself, or in the counter.
-/

namespace Interhart

/-!
# Accesses
-/

structure Access where
  address : UInt64
  size : Nat
deriving DecidableEq

namespace Access

def IsAligned (access : Access) : Prop := access.size ∣ access.address.toNat

/-- All bytes of an access belong to the register with a given index in
a block of registers. -/
structure InRegister (access : Access) (block size : UInt64) (width index : Nat) : Prop where
  within : ∃ place, access.address = block + UInt64.ofNat place ∧ width * index ≤ place ∧
    place + access.size ≤ width * index + width
  room : width * index + width ≤ size.toNat

/-- The accesses that a register of 64 bits allows: to the whole of it, and to its halves. -/
def parts (address : UInt64) : List Access := [⟨address, 8⟩, ⟨address, 4⟩, ⟨address + 4, 4⟩]

theorem isAligned_of_mem_parts {address : UInt64} {access : Access} (h : 8 ∣ address.toNat)
    (hmem : access ∈ parts address) : access.IsAligned := by
  have hnext := toNat_add_four h
  simp only [parts, List.mem_cons, List.not_mem_nil, or_false] at hmem
  rcases hmem with rfl | rfl | rfl
  · exact h
  · exact Nat.dvd_trans (show 4 ∣ 8 by decide) h
  · show 4 ∣ (address + 4).toNat
    omega

theorem inRegister_of_mem_parts {block size : UInt64} {index : Nat} {access : Access}
    (hroom : 8 * index + 8 ≤ size.toNat)
    (hmem : access ∈ parts (block + UInt64.ofNat (index * 8))) :
    access.InRegister block size 8 index := by
  refine ⟨?_, hroom⟩
  simp only [parts, List.mem_cons, List.not_mem_nil, or_false] at hmem
  rcases hmem with rfl | rfl | rfl
  · exact ⟨index * 8, rfl, by omega, by dsimp only; omega⟩
  · exact ⟨index * 8, rfl, by omega, by dsimp only; omega⟩
  · refine ⟨index * 8 + 4, ?_, by omega, by dsimp only; omega⟩
    rw [UInt64.ofNat_add, ← UInt64.add_assoc]
    rfl

end Access

structure Bank where
  base : UInt64
  size : UInt64
  width : Nat
  harts : HartRange
  windows : List DieWindow

namespace Bank

/-- An access to the register of a hart, which has the place of the hart in the
copy that serves it. -/
def OwnRegister (bank : Bank) (hart : Nat) (access : Access) : Prop :=
  bank.harts.contains hart = true ∧ ∃ segment : Segment,
    segment.Holds bank.harts bank.windows hart ∧ segment.first ≤ hart ∧ hart < segment.stop ∧
      access.InRegister (bank.base + segment.offset) bank.size bank.width (hart - segment.first)

def FirstRegister (bank : Bank) (hart : Nat) (access : Access) : Prop :=
  ∃ segment : Segment, segment.Holds bank.harts bank.windows hart ∧
    access.InRegister (bank.base + segment.offset) bank.size bank.width 0

end Bank

/-!
# Surroundings that note down accesses
-/

structure Probe where
  /-- What a read finds after some accesses, the latest of them first. -/
  shows : List Access → UInt64
  accesses : List Access := []

namespace Probe

def note (probe : Probe) (access : Access) : Probe :=
  { probe with accesses := access :: probe.accesses }

instance : ReadsRegisters (EStateM Exit Probe) where
  read32 address := fun probe =>
    .ok (lowHalf (probe.shows probe.accesses)) (probe.note ⟨address, 4⟩)
  read64 address := fun probe => .ok (probe.shows probe.accesses) (probe.note ⟨address, 8⟩)

instance : WritesRegisters (EStateM Exit Probe) where
  write32 address _ := modify (·.note ⟨address, 4⟩)
  write64 address _ := modify (·.note ⟨address, 8⟩)

def Within (allowed : Access → Prop) (probe : Probe) : Prop :=
  ∀ access ∈ probe.accesses, allowed access

theorem Within.note {allowed : Access → Prop} {probe : Probe} {access : Access}
    (h : probe.Within allowed) (haccess : allowed access) :
    (probe.note access).Within allowed :=
  List.forall_mem_cons.mpr ⟨haccess, h⟩

end Probe

/-- An operation makes accesses of a kind only, and nothing breaks it off but the
end of its patience. -/
def Confined {α : Type} (allowed : Access → Prop) (operation : EStateM Exit Probe α) : Prop :=
  Contract (Probe.Within allowed) operation (fun _ => Probe.Within allowed)
    fun exit probe => exit = .exhausted ∧ probe.Within allowed

namespace Confined

variable {α β : Type} {allowed : Access → Prop} {address : UInt64}

theorem value (value : α) : Confined allowed (pure value) := Contract.value fun _ h => h

theorem bind {first : EStateM Exit Probe α} {rest : α → EStateM Exit Probe β}
    (hfirst : Confined allowed first) (hrest : ∀ value, Confined allowed (rest value)) :
    Confined allowed (first >>= rest) :=
  Contract.bind hfirst hrest

theorem discarding {operation : EStateM Exit Probe α} (h : Confined allowed operation) :
    Confined allowed (discard operation) :=
  h.bind fun _ => value ()

theorem loading32 (haligned : address % 4 = 0) (h : allowed ⟨address, 4⟩) :
    Confined allowed (load32 address) := by
  unfold load32
  rw [if_pos haligned]
  exact fun probe hprobe => hprobe.note h

theorem loading64 (haligned : address % 8 = 0) (h : allowed ⟨address, 8⟩) :
    Confined allowed (load64 address) := by
  unfold load64
  rw [if_pos haligned]
  exact fun probe hprobe => hprobe.note h

theorem storing32 (haligned : address % 4 = 0) (h : allowed ⟨address, 4⟩) (value : UInt32) :
    Confined allowed (store32 address value) := by
  unfold store32
  rw [if_pos haligned]
  exact fun probe hprobe => hprobe.note h

theorem storing64 (haligned : address % 8 = 0) (h : allowed ⟨address, 8⟩) (value : UInt64) :
    Confined allowed (store64 address value) := by
  unfold store64
  rw [if_pos haligned]
  exact fun probe hprobe => hprobe.note h

section Register

variable (haligned : 8 ∣ address.toNat) (h : ∀ access ∈ Access.parts address, allowed access)

include haligned h

theorem reading (access : RegisterAccess) : Confined allowed (access.read address) := by
  rcases List.forall_mem_cons.mp h with ⟨hwhole, hhalves⟩
  rcases List.forall_mem_cons.mp hhalves with ⟨hlow, hhigh⟩
  rcases halves_mod_four haligned with ⟨hlowAligned, hhighAligned⟩
  cases access with
  | whole => exact loading64 (mod_eight_of_dvd haligned) hwhole
  | halves =>
      have hload := loading32 hhighAligned (hhigh _ (List.mem_singleton_self _))
      refine Contract.poll ?_ (fun _ hprobe => ⟨rfl, hprobe⟩) patience
      refine hload.bind fun _ => (loading32 hlowAligned hlow).bind fun _ => ?_
      exact hload.bind fun _ => value _

theorem writing (access : RegisterAccess) (parked : UInt32) (value : UInt64) :
    Confined allowed (access.write parked address value) := by
  rcases List.forall_mem_cons.mp h with ⟨hwhole, hhalves⟩
  rcases List.forall_mem_cons.mp hhalves with ⟨hlow, hhigh⟩
  rcases halves_mod_four haligned with ⟨hlowAligned, hhighAligned⟩
  cases access with
  | whole => exact storing64 (mod_eight_of_dvd haligned) hwhole value
  | halves =>
      refine (storing32 hlowAligned hlow parked).bind fun _ => ?_
      refine (storing32 hhighAligned (hhigh _ (List.mem_singleton_self _)) _).bind fun _ => ?_
      exact storing32 hlowAligned hlow _

end Register

end Confined

/-!
# Software-interrupt devices
-/

namespace Mswi.Config

variable {config : Config} {hart : Nat} {allowed : Access → Prop}

def bank (config : Config) : Bank := ⟨config.base, config.size, 4, config.harts, config.windows⟩

theorem ownRegister (h : config.Aligned) {address : UInt64}
    (haddress : config.register? hart = some address) :
    Access.IsAligned ⟨address, 4⟩ ∧ config.bank.OwnRegister hart ⟨address, 4⟩ := by
  have hserves := serves_of_register? haddress
  have hplace := place_lt h hserves
  have hroom := h.room
  have hwithin := DieWindow.mem_segmentOf config.windows hserves
  constructor
  · show 4 ∣ address.toNat
    have hcopy := dvd_add h.base (dvd_offset h hart)
    rw [toNat_register h haddress]
    omega
  · rw [register?_of_serves hserves, Option.some.injEq] at haddress
    refine ⟨hserves, DieWindow.segmentOf config.harts config.windows hart,
      DieWindow.holds_segmentOf h.windows hart, hwithin.1, hwithin.2, ?_, ?_⟩
    · refine ⟨config.place hart * 4, haddress.symm, ?_, ?_⟩
      · exact Nat.le_of_eq (Nat.mul_comm _ _)
      · exact Nat.le_of_eq (congrArg (· + 4) (Nat.mul_comm _ _))
    · show 4 * config.place hart + 4 ≤ config.size.toNat
      omega

theorem confined_write (h : config.isValid = true)
    (hallowed : ∀ access, access.IsAligned → config.bank.OwnRegister hart access →
      allowed access)
    (value : UInt32) : Confined allowed (config.write hart value) := by
  unfold write
  cases haddress : config.register? hart with
  | none => exact .value ()
  | some address =>
      rcases ownRegister (aligned_of_isValid h) haddress with ⟨haligned, hown⟩
      exact .storing32 (mod_four_of_dvd haligned) (hallowed _ haligned hown) value

theorem confined_isPending (h : config.isValid = true)
    (hallowed : ∀ access, access.IsAligned → config.bank.OwnRegister hart access →
      allowed access) :
    Confined allowed (config.isPending hart) := by
  unfold isPending
  cases haddress : config.register? hart with
  | none => exact .value none
  | some address =>
      rcases ownRegister (aligned_of_isValid h) haddress with ⟨haligned, hown⟩
      have hload := Confined.loading32 (mod_four_of_dvd haligned) (hallowed _ haligned hown)
      exact hload.bind fun _ => .value _

end Mswi.Config

/-!
# Timer devices
-/

namespace Mtimer.Config

variable {config : Config} {hart : Nat} {access : Access} {allowed : Access → Prop}

def timeBank (config : Config) : Bank :=
  ⟨config.timeBase, config.timeSize, 8, config.harts, config.windows⟩

def compareBank (config : Config) : Bank :=
  ⟨config.compareBase, config.compareSize, 8, config.harts, config.windows⟩

theorem firstRegister (h : config.Aligned)
    (hmem : access ∈ Access.parts (config.timeRegister hart)) :
    config.timeBank.FirstRegister hart access := by
  have hpos := h.timeSize_pos
  have hsize := h.timeSize
  have hroom : 8 * 0 + 8 ≤ config.timeSize.toNat := by omega
  refine ⟨DieWindow.segmentOf config.harts config.windows hart,
    DieWindow.holds_segmentOf h.windows hart, Access.inRegister_of_mem_parts hroom ?_⟩
  rw [timeRegister_eq] at hmem
  rw [Nat.zero_mul]
  exact (UInt64.add_zero (config.timeBase + config.offset hart)).symm ▸ hmem

theorem ownRegister (h : config.Aligned) {address : UInt64}
    (haddress : config.compareRegister? hart = some address)
    (hmem : access ∈ Access.parts address) : config.compareBank.OwnRegister hart access := by
  have hserves := serves_of_compareRegister? haddress
  have hplace := place_lt h hserves
  have hcount := h.room
  have hroom : 8 * config.place hart + 8 ≤ config.compareSize.toNat := by omega
  have hwithin := DieWindow.mem_segmentOf config.windows hserves
  rw [compareRegister?_of_serves hserves, Option.some.injEq] at haddress
  rw [← haddress] at hmem
  exact ⟨hserves, DieWindow.segmentOf config.harts config.windows hart,
    DieWindow.holds_segmentOf h.windows hart, hwithin.1, hwithin.2,
    Access.inRegister_of_mem_parts hroom hmem⟩

section Time

variable (h : config.isValid = true)
  (hallowed : ∀ access, access.IsAligned → config.timeBank.FirstRegister hart access →
    allowed access)

include h hallowed

theorem confined_time : Confined allowed (config.time hart) := by
  have haligned := dvd_timeRegister h hart
  refine .reading haligned (fun access hmem => ?_) config.access
  exact hallowed access (Access.isAligned_of_mem_parts haligned hmem)
    (firstRegister (aligned_of_isValid h) hmem)

theorem confined_setTime (value : UInt64) : Confined allowed (config.setTime hart value) := by
  have haligned := dvd_timeRegister h hart
  refine .writing haligned (fun access hmem => ?_) config.access parkedTime value
  exact hallowed access (Access.isAligned_of_mem_parts haligned hmem)
    (firstRegister (aligned_of_isValid h) hmem)

theorem confined_align {reference : Config} (hreference : reference.isValid = true)
    (hfollowed : ∀ access, access.IsAligned → reference.timeBank.FirstRegister hart access →
      allowed access) : Confined allowed (config.align reference hart) := by
  have htime := confined_time h hallowed
  unfold align
  refine htime.bind fun _ => (confined_time hreference hfollowed).bind fun _ => ?_
  refine htime.bind fun _ => htime.bind fun _ => ?_
  exact (confined_setTime h hallowed _).bind fun _ => .value _

end Time

section Compare

variable (h : config.isValid = true)
  (hallowed : ∀ access, access.IsAligned → config.compareBank.OwnRegister hart access →
    allowed access)

include h hallowed

theorem confined_compare : Confined allowed (config.compare hart) := by
  unfold compare
  cases haddress : config.compareRegister? hart with
  | none => exact .value none
  | some address =>
      have haligned := dvd_compareRegister h haddress
      refine Confined.bind (.reading haligned ?_ config.access) fun _ => .value _
      intro access hmem
      exact hallowed access (Access.isAligned_of_mem_parts haligned hmem)
        (ownRegister (aligned_of_isValid h) haddress hmem)

theorem confined_arm (deadline : UInt64) : Confined allowed (config.arm hart deadline) := by
  unfold arm
  cases haddress : config.compareRegister? hart with
  | none => exact .value ()
  | some address =>
      have haligned := dvd_compareRegister h haddress
      refine .writing haligned (fun access hmem => ?_) config.access parkedCompare deadline
      exact hallowed access (Access.isAligned_of_mem_parts haligned hmem)
        (ownRegister (aligned_of_isValid h) haddress hmem)

theorem confined_isPending
    (htime : ∀ access, access.IsAligned → config.timeBank.FirstRegister hart access →
      allowed access) : Confined allowed (config.isPending hart) := by
  refine (confined_compare h hallowed).bind fun deadline => ?_
  cases deadline with
  | none => exact .value none
  | some deadline => exact (confined_time h htime).bind fun _ => .value _

end Compare

end Mtimer.Config

/-!
# Operations on devices
-/

/-- What can be asked of a device.  Synchronising one that is due for it
comes to an alignment. -/
inductive DeviceOperation
  | raise (config : Mswi.Config)
  | clear (config : Mswi.Config)
  | isRaised (config : Mswi.Config)
  | time (config : Mtimer.Config)
  | compare (config : Mtimer.Config)
  | arm (config : Mtimer.Config) (deadline : UInt64)
  | disarm (config : Mtimer.Config)
  | isDue (config : Mtimer.Config)
  | align (config reference : Mtimer.Config)

namespace DeviceOperation

def IsValid : DeviceOperation → Prop
  | raise config | clear config | isRaised config => config.isValid = true
  | time config | compare config | arm config _ | disarm config | isDue config =>
      config.isValid = true
  | align config reference => config.isValid = true ∧ reference.isValid = true

def run (hart : Nat) : DeviceOperation → EStateM Exit Probe Unit
  | raise config => config.raise hart
  | clear config => config.clear hart
  | isRaised config => discard (config.isPending hart)
  | time config => discard (config.time hart)
  | compare config => discard (config.compare hart)
  | arm config deadline => config.arm hart deadline
  | disarm config => config.disarm hart
  | isDue config => discard (config.isPending hart)
  | align config reference => discard (config.align reference hart)

/-- The accesses that an operation may make on behalf of a hart. -/
def Allows (hart : Nat) (access : Access) : DeviceOperation → Prop
  | raise config | clear config | isRaised config => config.bank.OwnRegister hart access
  | time config => config.timeBank.FirstRegister hart access
  | compare config | arm config _ | disarm config => config.compareBank.OwnRegister hart access
  | isDue config =>
      config.compareBank.OwnRegister hart access ∨ config.timeBank.FirstRegister hart access
  | align config reference =>
      config.timeBank.FirstRegister hart access ∨ reference.timeBank.FirstRegister hart access

theorem confined_run {operation : DeviceOperation} (h : operation.IsValid) (hart : Nat) :
    Confined (fun access => access.IsAligned ∧ operation.Allows hart access)
      (operation.run hart) := by
  cases operation with
  | raise config => exact config.confined_write h (fun _ => And.intro) 1
  | clear config => exact config.confined_write h (fun _ => And.intro) 0
  | isRaised config => exact (config.confined_isPending h fun _ => And.intro).discarding
  | time config => exact (config.confined_time h fun _ => And.intro).discarding
  | compare config => exact (config.confined_compare h fun _ => And.intro).discarding
  | arm config deadline => exact config.confined_arm h (fun _ => And.intro) deadline
  | disarm config => exact config.confined_arm h (fun _ => And.intro) Mtimer.disarmed
  | isDue config =>
      refine Confined.discarding (config.confined_isPending h ?_ ?_)
      · exact fun access haligned hown => ⟨haligned, .inl hown⟩
      · exact fun access haligned hfirst => ⟨haligned, .inr hfirst⟩
  | align config reference =>
      refine Confined.discarding (config.confined_align h.1 ?_ h.2 ?_)
      · exact fun access haligned hfirst => ⟨haligned, .inl hfirst⟩
      · exact fun access haligned hfirst => ⟨haligned, .inr hfirst⟩

end DeviceOperation

namespace Machine

open Bench

/-- Whatever reads show, an operation on valid devices makes aligned accesses only, to the
register of its hart or to the counters that the hart sees.  It ends, or it goes on reading a
counter whose high half changes all the time.  A device that is due is synchronised by an
alignment, and another one without an access. -/
theorem accesses_confined :
    (∀ operation : DeviceOperation, operation.IsValid →
      ∀ (hart : Nat) (shows : List Access → UInt64),
        (exit? (operation.run hart) ⟨shows, []⟩ = none ∨
          exit? (operation.run hart) ⟨shows, []⟩ = some .exhausted) ∧
        ∀ access ∈ (finalState (operation.run hart) ⟨shows, []⟩).accesses,
          access.IsAligned ∧ operation.Allows hart access) ∧
      ∀ (m : Machine) (number hart : Nat) (device : Mtimer.Device),
        m.outside.mtimers[number]? = some device →
          (¬device.IsDue → sync number hart m = .ok false m) ∧
          ∀ reference, device.IsDue → device.reference = some reference →
            sync number hart m = (do
              let followed ← Ipi.onOutside (mtimer reference)
              let delta ← device.config.align followed.config hart
              Ipi.onOutside do
                setMtimer number fun d => { d with delta := some (d.delta.getD delta) }
                log (device.config.alignedRecord delta)
              return true : MachineM Bool) (m.within (m.outside.beginning number)) := by
  constructor
  · intro operation hvalid hart shows
    have hnone : Probe.Within (fun access => access.IsAligned ∧ operation.Allows hart access)
        ⟨shows, []⟩ := fun _ hmem => absurd hmem List.not_mem_nil
    have hconfined := DeviceOperation.confined_run hvalid hart ⟨shows, []⟩ hnone
    unfold exit? finalState
    cases hrun : operation.run hart ⟨shows, []⟩ with
    | ok _ probe =>
        rw [hrun] at hconfined
        exact ⟨.inl rfl, hconfined⟩
    | error exit probe =>
        rw [hrun] at hconfined
        exact ⟨.inr (congrArg some hconfined.1), hconfined.2⟩
  · intro m number hart device hdevice
    exact ⟨sync_of_idle hdevice, fun _ hdue => sync_of_due hdevice hdue⟩

def twoDies : Mtimer.Config :=
  { timeBase := 0x1000, timeSize := 8, compareBase := 0x2000, compareSize := 0x40
    frequency := 1000000, harts := ⟨0, 8⟩, supportsWhole := false, sharesTime := false
    windows := [⟨4, 0x10000⟩] }

theorem accesses_confined_twoDies :
    (DeviceOperation.arm twoDies 7).IsValid ∧
      (finalState ((DeviceOperation.arm twoDies 7).run 5) ⟨fun _ => 0, []⟩).accesses =
        [⟨0x12008, 4⟩, ⟨0x1200c, 4⟩, ⟨0x12008, 4⟩] ∧
      twoDies.compareBank.OwnRegister 5 ⟨0x1200c, 4⟩ ∧
      sync 0 5 { outside := { mtimers := [{ config := twoDies }] } } =
        .ok false { outside := { mtimers := [{ config := twoDies }] } } := by
  have hvalid : (DeviceOperation.arm twoDies 7).IsValid :=
    show twoDies.isValid = true by decide
  have haccesses : (finalState ((DeviceOperation.arm twoDies 7).run 5) ⟨fun _ => 0,
      []⟩).accesses = [⟨0x12008, 4⟩, ⟨0x1200c, 4⟩, ⟨0x12008, 4⟩] := by decide +kernel
  have hconfined := (accesses_confined.1 _ hvalid 5 fun _ => 0).2
  rw [haccesses] at hconfined
  refine ⟨hvalid, haccesses, (hconfined ⟨0x1200c, 4⟩ (by decide)).2, ?_⟩
  exact (accesses_confined.2 _ 0 5 { config := twoDies } rfl).1 fun hdue => hdue.1 rfl

end Machine
end Interhart
