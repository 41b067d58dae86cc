import Interhart.Proofs.Machine.Surroundings
import Interhart.Proofs.Mtimer.Copies
import Interhart.Proofs.Registers.Halves
import Interhart.Proofs.Registers.Words

/-!
# Accesses of a machine to registers

A machine reads registers as its bench does, and no other hart runs meanwhile.  It writes them
as its bench does, except that a write may interrupt harts.  A register of 64 bits in memory
that stands still unless it is written has the same value however it is accessed.
-/

namespace Interhart

/-!
# Registers in memory

If a register of 64 bits lies in memory, no counter has a part in its two words.
-/

namespace Bus

variable {bus : Bus} {address other : UInt64}

def setWord (bus : Bus) (address : UInt64) (word : UInt32) : Bus :=
  { bus with memory := fun a => if a = address then word else bus.memory a }

def setRegister (bus : Bus) (address value : UInt64) : Bus :=
  (bus.setWord address (lowHalf value)).setWord (address + 4) (highHalf value)

def store (bus : Bus) (access : RegisterAccess) (parked : UInt32)
    (address value : UInt64) : Bus :=
  match access with
  | .whole => bus.poke64 address value
  | .halves =>
      ((bus.poke address parked).poke (address + 4) (highHalf value)).poke address
        (lowHalf value)

/-- A register lies in memory, which stands still unless it is written. -/
def Still (bus : Bus) (address : UInt64) : Prop :=
  ¬bus.HasCounter address ∧ ¬bus.HasCounter (address + 4)

theorem still_of_no_counters (h : bus.counters = []) (address : UInt64) :
    bus.Still address := by
  have hnone (place : UInt64) : ¬bus.HasCounter place := by
    intro hcounter
    rcases hcounter with ⟨counter, hmem, _⟩
    rw [h] at hmem
    exact absurd hmem List.not_mem_nil
  exact ⟨hnone address, hnone (address + 4)⟩

theorem poke_eq_setWord (h : ¬bus.HasCounter address) (word : UInt32) :
    bus.poke address word = bus.setWord address word := poke_of_no_counter word h

theorem still_setRegister (bus : Bus) (place value address : UInt64) :
    (bus.setRegister place value).Still address ↔ bus.Still address := Iff.rfl

theorem setWord_setWord (bus : Bus) (address : UInt64) (early late : UInt32) :
    (bus.setWord address early).setWord address late = bus.setWord address late := by
  unfold setWord
  congr 1
  funext a
  by_cases h : a = address
  · rw [if_pos h, if_pos h]
  · rw [if_neg h, if_neg h]
    exact if_neg h

theorem setWord_comm (bus : Bus) (h : address ≠ other) (word word' : UInt32) :
    (bus.setWord address word).setWord other word' =
      (bus.setWord other word').setWord address word := by
  unfold setWord
  congr 1
  funext a
  dsimp only
  by_cases ha : a = address
  · have hne : a ≠ other := by
      rw [ha]
      exact h
    rw [if_neg hne, if_pos ha, if_pos ha]
  · rw [if_neg ha, if_neg ha]

theorem store_of_still (h : bus.Still address) (access : RegisterAccess) (parked : UInt32)
    (value : UInt64) :
    bus.store access parked address value = bus.setRegister address value := by
  cases access with
  | whole =>
      rw [store, poke64, poke_eq_setWord h.1, poke_eq_setWord]
      · rfl
      · exact h.2
  | halves =>
      have hhigh : ¬(bus.setWord address parked).HasCounter (address + 4) := h.2
      have hlow :
          ¬((bus.setWord address parked).setWord (address + 4) (highHalf value)).HasCounter
          address := h.1
      rw [store, poke_eq_setWord h.1, poke_eq_setWord hhigh, poke_eq_setWord hlow,
        setWord_comm _ (add_four_ne address), setWord_setWord]
      rfl

theorem peek64_of_still (h : bus.Still address) :
    bus.peek64 address = joinHalves (bus.memory (address + 4)) (bus.memory address) := by
  rw [peek64, peek_of_no_counter h.1, peek_of_no_counter h.2]

theorem memory_setRegister (bus : Bus) (address value a : UInt64) :
    (bus.setRegister address value).memory a =
      if a = address + 4 then highHalf value
      else if a = address then lowHalf value else bus.memory a := rfl

theorem peek64_setRegister_self (h : bus.Still address) (value : UInt64) :
    (bus.setRegister address value).peek64 address = value := by
  rw [peek64_of_still ((still_setRegister bus address value address).mpr h), memory_setRegister,
    memory_setRegister, if_pos rfl, if_neg (add_four_ne address).symm, if_pos rfl,
    joinHalves_halves]

theorem peek64_setRegister_of_ne (h : bus.Still other) (haddress : 8 ∣ address.toNat)
    (hother : 8 ∣ other.toNat) (hne : other ≠ address) (value : UInt64) :
    (bus.setRegister address value).peek64 other = bus.peek64 other := by
  have hhigh : other + 4 ≠ address + 4 := by
    intro hsame
    exact hne ((UInt64.add_left_inj 4).mp hsame)
  rw [peek64_of_still ((still_setRegister bus address value other).mpr h), peek64_of_still h,
    memory_setRegister, memory_setRegister, if_neg hhigh,
      if_neg (ne_add_four hother haddress).symm,
    if_neg (ne_add_four haddress hother), if_neg hne]

end Bus

/-!
# What stands in the trace of an access
-/

def Entry.isWrite : Entry → Bool
  | .write32 _ _ | .write64 _ _ => true
  | _ => false

theorem Entry.IsPassive.isWrite {entry : Entry} (h : entry.IsPassive) :
    entry.isWrite = false := by
  cases entry with
  | write32 address value => cases h
  | write64 address value => cases h
  | _ => rfl

namespace RegisterAccess

def writes (access : RegisterAccess) (parked : UInt32) (address value : UInt64) : List Entry :=
  match access with
  | whole => [.write64 address value]
  | halves =>
      [.write32 address parked, .write32 (address + 4) (highHalf value),
        .write32 address (lowHalf value)]

def reads (access : RegisterAccess) (address value : UInt64) : List Entry :=
  match access with
  | whole => [.read64 address value]
  | halves =>
      [.read32 (address + 4) (highHalf value), .read32 address (lowHalf value),
        .read32 (address + 4) (highHalf value)]

theorem filter_writes (access : RegisterAccess) (parked : UInt32)
    (address value : UInt64) :
    (access.writes parked address value).filter Entry.isWrite =
      access.writes parked address value := by
  cases access with
  | whole => rfl
  | halves => rfl

end RegisterAccess

theorem Bench.Alike.filter_trace {b b' : Bench} (h : Alike b b') :
    b'.trace.filter Entry.isWrite = b.trace.filter Entry.isWrite := by
  rcases h with ⟨_, _, entries, _, hpassive, rfl⟩
  have hnone : entries.filter Entry.isWrite = [] := by
    rw [List.filter_eq_nil_iff]
    intro entry hmem
    rw [(hpassive entry hmem).isWrite]
    exact Bool.false_ne_true
  rw [List.filter_append, hnone, List.nil_append]

namespace Bench

variable {b : Bench} {address : UInt64}

/-!
# Reading
-/

theorem load32_apply (h : address % 4 = 0) (b : Bench) :
    (load32 address : BenchM UInt32) b =
      .ok (b.bus.peek address)
        { b with
          bus := b.bus.tick address
          trace := .read32 address (b.bus.peek address) :: b.trace } := by
  unfold load32
  rw [if_pos h]
  rfl

theorem load64_apply (h : address % 8 = 0) (b : Bench) :
    (load64 address : BenchM UInt64) b =
      .ok (b.bus.peek64 address)
        { b with
          bus := b.bus.tick address
          trace := .read64 address (b.bus.peek64 address) :: b.trace } := by
  unfold load64
  rw [if_pos h]
  rfl

theorem read_of_still (access : RegisterAccess) (haligned : 8 ∣ address.toNat)
    (h : b.bus.Still address) :
    (access.read address : BenchM UInt64) b =
      .ok (b.bus.peek64 address)
        { b with
          trace := (access.reads address (b.bus.peek64 address)).reverse ++ b.trace } := by
  cases access with
  | whole =>
      refine (load64_apply (mod_eight_of_dvd haligned) b).trans ?_
      rw [Bus.tick_of_no_counter h.1]
      rfl
  | halves =>
      rcases halves_mod_four haligned with ⟨hlow, hhigh⟩
      have hload (place : UInt64) (hplace : place % 4 = 0) (hstill : ¬b.bus.HasCounter place)
          (trace : List Entry) :
          (load32 place : BenchM UInt32) { b with trace := trace } =
            .ok (b.bus.peek place)
              { b with trace := .read32 place (b.bus.peek place) :: trace } := by
        rw [load32_apply hplace]
        dsimp only
        rw [Bus.tick_of_no_counter hstill]
      have hread := readHalves_of_steady (hload _ hhigh h.2 b.trace) (hload _ hlow h.1 _)
        (hload _ hhigh h.2 _)
      refine hread.trans ?_
      rw [RegisterAccess.reads, Bus.peek64, highHalf_joinHalves, lowHalf_joinHalves]
      rfl

theorem contract_read (access : RegisterAccess) (haligned : 8 ∣ address.toNat) (start : Bench) :
    Contract (Alike start) (access.read address) (fun _ => Alike start)
      fun exit b => exit = .exhausted ∧ Alike start b := by
  have hload (place : UInt64) (hplace : place % 4 = 0) :
      Contract (Alike start) (load32 place) (fun _ => Alike start)
        fun exit b => exit = .exhausted ∧ Alike start b := by
    intro b hb
    have hpassive := Passive.loading32 place start b hb
    rw [load32_apply hplace] at hpassive ⊢
    exact hpassive
  cases access with
  | whole =>
      intro b hb
      have hpassive := Passive.loading64 address start b hb
      rw [load64_apply (mod_eight_of_dvd haligned)] at hpassive
      rw [RegisterAccess.read, load64_apply (mod_eight_of_dvd haligned)]
      exact hpassive
  | halves =>
      rcases halves_mod_four haligned with ⟨hlow, hhigh⟩
      refine Contract.poll ?_ (fun _ hb => ⟨rfl, hb⟩) patience
      refine (hload _ hhigh).bind fun high => (hload _ hlow).bind fun low => ?_
      exact (hload _ hhigh).bind fun again => Contract.value fun _ hb => hb

end Bench

/-!
# Reading by a machine
-/

namespace Ipi

variable {κ σ α β : Type}

theorem onOutside_bind (first : EStateM Exit σ α) (rest : α → EStateM Exit σ β) :
    (onOutside (first >>= rest) : Run κ σ β) =
      onOutside first >>= fun value => onOutside (rest value) := by
  funext s
  cases hfirst : first s.outside with
  | ok value outside =>
      rw [bind_of_ok (onOutside_of_ok hfirst)]
      cases hrest : rest value outside with
      | ok last left =>
          have hlast : rest value (s.within outside).outside = .ok last left := hrest
          rw [onOutside_of_ok ((bind_of_ok hfirst).trans hrest), onOutside_of_ok hlast]
          rfl
      | error exit left =>
          have hlast : rest value (s.within outside).outside = .error exit left := hrest
          rw [onOutside_of_error ((bind_of_ok hfirst).trans hrest), onOutside_of_error hlast]
          rfl
  | error exit outside =>
      rw [bind_of_error (onOutside_of_error hfirst)]
      exact onOutside_of_error (bind_of_error hfirst)

theorem onOutside_pure (value : α) : (onOutside (pure value) : Run κ σ α) = pure value := rfl

theorem onOutside_poll (attempt : EStateM Exit σ (Option α)) (bound : Nat) :
    (onOutside (poll attempt bound) : Run κ σ α) = poll (onOutside attempt) bound := by
  induction bound with
  | zero => rfl
  | succ bound ih =>
      rw [poll_succ, poll_succ, onOutside_bind]
      congr 1
      funext result
      cases result with
      | none => exact ih
      | some value => rfl

end Ipi

namespace Machine

theorem load32_eq (address : UInt64) :
    (load32 address : MachineM UInt32) = Ipi.onOutside (load32 address) := by
  unfold load32
  split
  · rfl
  · rfl

theorem read_eq (access : RegisterAccess) (address : UInt64) :
    (access.read address : MachineM UInt64) = Ipi.onOutside (access.read address) := by
  cases access with
  | whole =>
      unfold RegisterAccess.read load64
      dsimp only
      split
      · rfl
      · rfl
  | halves =>
      unfold RegisterAccess.read readHalves
      dsimp only
      rw [load32_eq, load32_eq, Ipi.onOutside_poll]
      simp only [Ipi.onOutside_bind, Ipi.onOutside_pure]

end Machine

/-!
# Writing by a machine
-/

namespace Bench

/-- No hart is interrupted by a write to the register at an address. -/
def Untrapped (b : Bench) (address : UInt64) : Prop :=
  b.script.atAddress address = [] ∧ b.script.atAddress (address + 4) = []

def poking (b : Bench) (address : UInt64) (word : UInt32) : Bench :=
  { b with bus := b.bus.poke address word, trace := .write32 address word :: b.trace }

def storing (b : Bench) (access : RegisterAccess) (parked : UInt32) (address value : UInt64) :
    Bench :=
  { b with
    bus := b.bus.store access parked address value
    trace := (access.writes parked address value).reverse ++ b.trace }

theorem write32_of_untrapped {b : Bench} {address : UInt64}
    (h : b.script.atAddress address = []) (value : UInt32) :
    write32 address value b = .ok [] (b.poking address value) := by
  unfold write32
  by_cases hzero : value = 0
  · rw [if_pos hzero]
    rfl
  · rw [if_neg hzero]
    change EStateM.Result.ok ((b.script.atAddress address).map Ipi.Call.process) _ = _
    rw [h]
    rfl

theorem write64_of_untrapped {b : Bench} {address : UInt64}
    (h : b.script.atAddress address = []) (value : UInt64) :
    write64 address value b =
      .ok [] { b with
        bus := b.bus.poke64 address value, trace := .write64 address value :: b.trace } := by
  unfold write64
  by_cases hzero : value = 0
  · rw [if_pos hzero]
    rfl
  · rw [if_neg hzero]
    change EStateM.Result.ok ((b.script.atAddress address).map Ipi.Call.process) _ = _
    rw [h]
    rfl

end Bench

namespace Machine

variable {m : Machine} {address : UInt64}

open Bench

theorem interrupting_of_nil {step : BenchM (List Ipi.Call)} {outside : Bench}
    (h : step m.outside = .ok [] outside) :
    interrupting step m = .ok () (m.within outside) := by
  unfold interrupting
  rw [bind_of_ok (Ipi.onOutside_of_ok h)]
  unfold handle
  rw [get_bind, Ipi.carryOut_nil]
  rfl

theorem store32_of_untrapped (haligned : address % 4 = 0)
    (h : m.outside.script.atAddress address = []) (value : UInt32) :
    (store32 address value : MachineM Unit) m =
      .ok () (m.within (m.outside.poking address value)) := by
  unfold store32
  rw [if_pos haligned]
  exact interrupting_of_nil (write32_of_untrapped h value)

theorem write_of_untrapped (access : RegisterAccess) (parked : UInt32)
    (haligned : 8 ∣ address.toNat) (h : m.outside.Untrapped address) (value : UInt64) :
    (access.write parked address value : MachineM Unit) m =
      .ok () (m.within (m.outside.storing access parked address value)) := by
  cases access with
  | whole =>
      unfold RegisterAccess.write store64
      dsimp only
      rw [if_pos (mod_eight_of_dvd haligned)]
      exact interrupting_of_nil (write64_of_untrapped h.1 value)
  | halves =>
      rcases halves_mod_four haligned with ⟨hlow, hhigh⟩
      unfold RegisterAccess.write writeHalves
      dsimp only
      -- The script stays as it is, so the later writes interrupt nobody either.
      rw [bind_of_ok (store32_of_untrapped hlow h.1 parked)]
      have hhalf : (m.within (m.outside.poking address parked)).outside.script.atAddress
          (address + 4) = [] := h.2
      rw [bind_of_ok (store32_of_untrapped hhigh hhalf (highHalf value))]
      refine (store32_of_untrapped hlow ?_ (lowHalf value)).trans rfl
      exact h.1

end Machine

/-!
# Registers of a timer device
-/

namespace Mtimer.Config

variable {config : Config} {hart : Nat}

theorem dvd_timeRegister (h : config.isValid = true) (hart : Nat) :
    8 ∣ (config.timeRegister hart).toNat := by
  rw [timeRegister_eq]
  exact (dvd_copy (aligned_of_isValid h) (config.offset_mem_offsets hart)).1

theorem serves_of_compareRegister? {address : UInt64}
    (h : config.compareRegister? hart = some address) : config.serves hart = true := by
  by_contra hnot
  rw [compareRegister?, if_neg hnot] at h
  cases h

theorem dvd_compareRegister (h : config.isValid = true) {address : UInt64}
    (haddress : config.compareRegister? hart = some address) : 8 ∣ address.toNat := by
  apply register_mod_eight (aligned_of_isValid h) (serves_of_compareRegister? haddress)
  rw [registers, haddress]
  exact List.mem_cons_of_mem _ List.mem_cons_self

def armWrites (config : Config) (hart : Nat) (deadline : UInt64) : List Entry :=
  match config.compareRegister? hart with
  | some address => config.access.writes parkedCompare address deadline
  | none => []

def armed (config : Config) (hart : Nat) (deadline : UInt64) (b : Bench) : Bench :=
  match config.compareRegister? hart with
  | some address => b.storing config.access parkedCompare address deadline
  | none => b

def Untrapped (config : Config) (b : Bench) : Prop :=
  ∀ hart, b.Untrapped (config.timeRegister hart) ∧
    ∀ address, config.compareRegister? hart = some address → b.Untrapped address

theorem lasting_untrapped (config : Config) : Bench.Lasting config.Untrapped :=
  fun _ _ _ _ _ _ _ h => h

theorem trace_armed (config : Config) (hart : Nat) (deadline : UInt64) (b : Bench) :
    (config.armed hart deadline b).trace =
      (config.armWrites hart deadline).reverse ++ b.trace := by
  unfold armed armWrites
  cases config.compareRegister? hart with
  | none => rfl
  | some address => rfl

theorem filter_armWrites (config : Config) (hart : Nat) (deadline : UInt64) :
    (config.armWrites hart deadline).filter Entry.isWrite = config.armWrites hart deadline := by
  unfold armWrites
  cases config.compareRegister? hart with
  | none => rfl
  | some address => exact RegisterAccess.filter_writes _ _ _ _

theorem time_eq (config : Config) (hart : Nat) :
    (config.time hart : MachineM UInt64) = Ipi.onOutside (config.time hart) :=
  Machine.read_eq _ _

theorem compare_eq (config : Config) (hart : Nat) :
    (config.compare hart : MachineM (Option UInt64)) = Ipi.onOutside (config.compare hart) := by
  unfold compare
  cases config.compareRegister? hart with
  | none => rfl
  | some address =>
      dsimp only
      rw [Machine.read_eq, Ipi.onOutside_bind]
      rfl

theorem isPending_eq (config : Config) (hart : Nat) :
    (config.isPending hart : MachineM (Option Bool)) =
      Ipi.onOutside (config.isPending hart) := by
  unfold isPending
  rw [compare_eq, Ipi.onOutside_bind]
  congr 1
  funext deadline
  cases deadline with
  | none => rfl
  | some deadline =>
      dsimp only
      rw [time_eq, Ipi.onOutside_bind]
      rfl

theorem passive_compare (config : Config) (hart : Nat) :
    Bench.Passive (config.compare hart : BenchM (Option UInt64)) := by
  unfold compare
  cases config.compareRegister? hart with
  | none => exact .value none
  | some address => exact (Bench.Passive.accessing _ _).bind fun _ => .value _

theorem passive_isPending (config : Config) (hart : Nat) :
    Bench.Passive (config.isPending hart : BenchM (Option Bool)) := by
  refine (passive_compare config hart).bind fun deadline => ?_
  cases deadline with
  | none => exact .value none
  | some deadline => exact (Bench.Passive.accessing _ _).bind fun _ => .value _

theorem setTime_of_untrapped (h : config.isValid = true) {m : Machine}
    (huntrapped : m.outside.Untrapped (config.timeRegister hart)) (value : UInt64) :
    (config.setTime hart value : MachineM Unit) m =
      .ok () (m.within (m.outside.storing config.access parkedTime (config.timeRegister hart)
        value)) :=
  Machine.write_of_untrapped config.access parkedTime (dvd_timeRegister h hart) huntrapped value

theorem arm_of_untrapped (h : config.isValid = true) {m : Machine}
    (huntrapped : ∀ address, config.compareRegister? hart = some address →
      m.outside.Untrapped address) (deadline : UInt64) :
    (config.arm hart deadline : MachineM Unit) m =
      .ok () (m.within (config.armed hart deadline m.outside)) := by
  unfold arm armed
  cases hregister : config.compareRegister? hart with
  | none => rfl
  | some address =>
      exact Machine.write_of_untrapped config.access parkedCompare
        (dvd_compareRegister h hregister) (huntrapped address hregister) deadline

end Mtimer.Config
end Interhart
