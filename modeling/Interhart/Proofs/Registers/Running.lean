import Interhart.Mtimer
import Interhart.Proofs.Registers.Halves

/-!
# Registers that run by themselves

A register that is accessed by halves may go on by itself meanwhile.  Here one is followed from
moment to moment, tick by tick and access by access.  Reading it is exact, if it does not run
too fast: it gives what the register held when its low half was read for the last time.
Writing it is quiet: in between, a compare register is never below both values, and a counter
never above both.
-/

namespace Interhart

inductive Half
  | low
  | high
deriving DecidableEq

namespace Half

def of : Half → UInt64 → UInt32
  | .low => lowHalf
  | .high => highHalf

def replace : Half → UInt64 → UInt32 → UInt64
  | .low, value, word => joinHalves (highHalf value) word
  | .high, value, word => joinHalves word (lowHalf value)

end Half

namespace RunningRegister

/-- What a register holds at a moment: after a tick, or once a half of it has been accessed. -/
structure Moment where
  value : UInt64
  elapsed : Nat
  access : Option Half
deriving DecidableEq

end RunningRegister

/-- A register of 64 bits, with the ticks and accesses so far and all that it has held, the
latest moment first. -/
structure RunningRegister where
  value : UInt64
  elapsed : Nat
  accesses : Nat
  history : List RunningRegister.Moment
deriving DecidableEq

namespace RunningRegister

def start (value : UInt64) : RunningRegister := ⟨value, 0, 0, [⟨value, 0, none⟩]⟩

def tick (r : RunningRegister) : RunningRegister :=
  { r with
    value := r.value + 1
    elapsed := r.elapsed + 1
    history := ⟨r.value + 1, r.elapsed + 1, none⟩ :: r.history }

def wait (r : RunningRegister) : Nat → RunningRegister
  | 0 => r
  | count + 1 => (r.wait count).tick

/-- The register when its next access is made.  `pace` tells how many ticks go
by before each access. -/
def due (pace : Nat → Nat) (r : RunningRegister) : RunningRegister := r.wait (pace r.accesses)

def accessed (r : RunningRegister) (half : Half) (value : UInt64) : RunningRegister :=
  { r with
    value := value
    accesses := r.accesses + 1
    history := ⟨value, r.elapsed, some half⟩ :: r.history }

def afterRead (pace : Nat → Nat) (half : Half) (r : RunningRegister) : RunningRegister :=
  (r.due pace).accessed half (r.due pace).value

def afterWrite (pace : Nat → Nat) (half : Half) (word : UInt32) (r : RunningRegister) :
    RunningRegister :=
  (r.due pace).accessed half (half.replace (r.due pace).value word)

def read (pace : Nat → Nat) (half : Half) : EStateM Exit RunningRegister UInt32 :=
  fun r => .ok (half.of (r.due pace).value) (r.afterRead pace half)

def write (pace : Nat → Nat) (half : Half) (word : UInt32) :
    EStateM Exit RunningRegister Unit :=
  fun r => .ok () (r.afterWrite pace half word)

def latest? (r : RunningRegister) (half : Half) : Option UInt64 :=
  (r.history.find? fun moment => decide (moment.access = some half)).map (·.value)

/-!
# Waiting
-/

section Waiting

variable (r : RunningRegister) (count : Nat)

@[simp] theorem value_wait : (r.wait count).value = r.value + UInt64.ofNat count := by
  induction count with
  | zero => exact (UInt64.add_zero _).symm
  | succ count ih =>
      change (r.wait count).value + 1 = _
      rw [ih, UInt64.ofNat_add, UInt64.add_assoc]
      rfl

@[simp] theorem elapsed_wait : (r.wait count).elapsed = r.elapsed + count := by
  induction count with
  | zero => rfl
  | succ count ih => exact congrArg (· + 1) ih

@[simp] theorem accesses_wait : (r.wait count).accesses = r.accesses := by
  induction count with
  | zero => rfl
  | succ count ih => exact ih

@[simp] theorem latest?_wait (half : Half) : (r.wait count).latest? half = r.latest? half := by
  induction count with
  | zero => rfl
  | succ count ih => exact ih

end Waiting

theorem latest?_accessed_self (r : RunningRegister) (half : Half) (value : UInt64) :
    (r.accessed half value).latest? half = some value := by
  simp [latest?, accessed]

theorem latest?_accessed_of_ne {half other : Half} (h : other ≠ half) (r : RunningRegister)
    (value : UInt64) : (r.accessed other value).latest? half = r.latest? half := by
  simp [latest?, accessed, h]

structure Always (fact : UInt64 → Nat → Prop) (r : RunningRegister) : Prop where
  now : fact r.value r.elapsed
  before : ∀ moment ∈ r.history, fact moment.value moment.elapsed

namespace Always

variable {fact : UInt64 → Nat → Prop} {r : RunningRegister}

theorem start {value : UInt64} (h : fact value 0) : Always fact (start value) where
  now := h
  before := fun moment hmem => by
    rw [List.mem_singleton.mp hmem]
    exact h

theorem wait (h : Always fact r) (hticks : ∀ value elapsed, fact value elapsed →
    fact (value + 1) (elapsed + 1)) (count : Nat) : Always fact (r.wait count) := by
  induction count with
  | zero => exact h
  | succ count ih =>
      have hnext := hticks _ _ ih.now
      exact ⟨hnext, List.forall_mem_cons.mpr ⟨hnext, ih.before⟩⟩

theorem accessed (h : Always fact r) {half : Half} {value : UInt64}
    (hvalue : fact value r.elapsed) : Always fact (r.accessed half value) :=
  ⟨hvalue, List.forall_mem_cons.mpr ⟨hvalue, h.before⟩⟩

end Always

/-!
# Reading
-/

def halfAt (n : Nat) : Half := if n % 3 = 1 then .low else .high

def readTimes (pace : Nat → Nat) (r : RunningRegister) : Nat → RunningRegister
  | 0 => r
  | n + 1 => (r.readTimes pace n).afterRead pace (halfAt n)

theorem accesses_readTimes (pace : Nat → Nat) (value : UInt64) (n : Nat) :
    ((start value).readTimes pace n).accesses = n := by
  induction n with
  | zero => rfl
  | succ n ih =>
      change ((((start value).readTimes pace n).due pace).accesses) + 1 = n + 1
      rw [due, accesses_wait, ih]

theorem rounds_readTimes (pace : Nat → Nat) (r : RunningRegister) :
    Rounds (read pace .high) (read pace .low) (fun r => (r.due pace).value)
    (r.readTimes pace) where
  high := fun n hn => by
    rw [readTimes, halfAt, if_neg hn]
    rfl
  low := fun n hn => by
    rw [readTimes, halfAt, if_pos hn]
    rfl

theorem sub_readTimes (pace : Nat → Nat) (value : UInt64) (n : Nat) :
    (((start value).readTimes pace (n + 1)).due pace).value -
      (((start value).readTimes pace n).due pace).value = UInt64.ofNat (pace (n + 1)) := by
  have hnext : (((start value).readTimes pace (n + 1)).due pace).value =
      (((start value).readTimes pace n).due pace).value + UInt64.ofNat (pace (n + 1)) := by
    rw [due, value_wait, accesses_readTimes]
    rfl
  rw [hnext, UInt64.add_comm, UInt64.add_sub_cancel]

theorem latest?_readTimes (pace : Nat → Nat) (r : RunningRegister) {n : Nat} (hn : n % 3 = 1) :
    (r.readTimes pace (n + 2)).latest? .low = some ((r.readTimes pace n).due pace).value := by
  have hlow : halfAt n = .low := if_pos hn
  have hhigh : halfAt (n + 1) = .high := if_neg (by omega)
  have hother : Half.high ≠ Half.low := by decide
  rw [readTimes, hhigh, afterRead, latest?_accessed_of_ne hother, due, latest?_wait, readTimes,
    hlow, afterRead, latest?_accessed_self]

/-- A register that ticks less than `2 ^ 29` times from each access to the next is read within
two rounds.  What is read is what it held when its low half was read for the last time. -/
theorem untorn_of_paced (pace : Nat → Nat) (h : ∀ n < 5, pace (n + 1) < 2 ^ 29)
    (value : UInt64) : ∃ shown r, readHalves (read pace .high) (read pace .low) (start value) =
      .ok shown r ∧ r.accesses ≤ 6 ∧ r.latest? .low = some shown := by
  have hpace (n : Nat) (hn : n < 5) :
      ((((start value).readTimes pace (n + 1)).due pace).value -
        (((start value).readTimes pace n).due pace).value).toNat < 2 ^ 29 := by
    have hticks := h n hn
    rw [sub_readTimes, UInt64.toNat_ofNat', Nat.mod_eq_of_lt (by omega)]
    exact hticks
  rcases readHalves_of_rounds (rounds_readTimes pace (start value)) hpace with hread | hread
  · have hcount := accesses_readTimes pace value 3
    exact ⟨_, _, hread, by omega, latest?_readTimes pace _ rfl⟩
  · have hcount := accesses_readTimes pace value 6
    exact ⟨_, _, hread, by omega, latest?_readTimes pace _ rfl⟩

def quickening (access : Nat) : Nat := access

theorem untorn_carryingCounter :
    (∀ n < 5, quickening (n + 1) < 2 ^ 29) ∧
      ∃ shown r, readHalves (read quickening .high) (read quickening .low) (start 0x1ffffffff) =
        .ok shown r ∧ r.accesses ≤ 6 ∧ r.latest? .low = some shown := by
  have h : ∀ n < 5, quickening (n + 1) < 2 ^ 29 := by decide
  exact ⟨h, untorn_of_paced quickening h _⟩

example :
    (match readHalves (read quickening .high) (read quickening .low) (start 0x1ffffffff) with
      | .ok shown r => some (shown, r.accesses)
      | .error _ _ => none) = some (0x200000009, 6) := by decide

/-!
# Writing
-/

section AfterWrite

variable (pace : Nat → Nat) (half : Half) (word : UInt32) (r : RunningRegister)

theorem value_afterWrite :
    (r.afterWrite pace half word).value =
      half.replace (r.value + UInt64.ofNat (pace r.accesses)) word := by
  rw [← value_wait]
  rfl

theorem elapsed_afterWrite :
    (r.afterWrite pace half word).elapsed = r.elapsed + pace r.accesses := elapsed_wait r _

theorem accesses_afterWrite : (r.afterWrite pace half word).accesses = r.accesses + 1 :=
  congrArg (· + 1) (accesses_wait r _)

end AfterWrite

theorem Always.afterWrite {fact : UInt64 → Nat → Prop} {r : RunningRegister} {pace : Nat → Nat}
    {half : Half} {word : UInt32} (h : Always fact (r.due pace))
    (hwritten :
      fact (r.afterWrite pace half word).value (r.afterWrite pace half word).elapsed) :
    Always fact (r.afterWrite pace half word) :=
  h.accessed hwritten

section Stages

variable (pace : Nat → Nat) (parked : UInt32) (old new : UInt64)

def parking : RunningRegister := (start old).afterWrite pace .low parked

def halfWritten : RunningRegister :=
    (parking pace parked old).afterWrite pace .high (highHalf new)

def written : RunningRegister :=
  (halfWritten pace parked old new).afterWrite pace .low (lowHalf new)

theorem writeHalves_start :
    writeHalves parked new (write pace .high) (write pace .low) (start old) =
      .ok () (written pace parked old new) := rfl

theorem value_parking :
    (parking pace parked old).value =
      joinHalves (highHalf ((start old).due pace).value) parked :=
  rfl

theorem accesses_parking : (parking pace parked old).accesses = 1 := accesses_afterWrite _ _ _ _

theorem value_halfWritten :
    (halfWritten pace parked old new).value =
      joinHalves (highHalf new)
        (lowHalf ((parking pace parked old).value + UInt64.ofNat (pace 1))) := by
  rw [halfWritten, value_afterWrite, accesses_parking]
  rfl

theorem accesses_halfWritten : (halfWritten pace parked old new).accesses = 2 := by
  rw [halfWritten, accesses_afterWrite, accesses_parking]

theorem value_written :
    (written pace parked old new).value =
      joinHalves (highHalf ((halfWritten pace parked old new).value + UInt64.ofNat (pace 2)))
        (lowHalf new) := by
  rw [written, value_afterWrite, accesses_halfWritten]
  rfl

theorem accesses_written : (written pace parked old new).accesses = 3 := by
  rw [written, accesses_afterWrite, accesses_halfWritten]

end Stages

/-!
# Writing a compare register

It stands still unless it is written.  With its low half at the top it is not below any value
that has the same high half.
-/

def still (_ : Nat) : Nat := 0

theorem toNat_halves (value : UInt64) :
    value.toNat = UInt32.size * (highHalf value).toNat + (lowHalf value).toNat := by
  rw [← toNat_joinHalves, joinHalves_halves]

theorem le_parkedCompare (value : UInt64) :
    value.toNat ≤ (joinHalves (highHalf value) Mtimer.parkedCompare).toNat := by
  have hlow := (lowHalf value).toNat_lt
  rw [toNat_halves value, toNat_joinHalves,
    show Mtimer.parkedCompare.toNat = 2 ^ 32 - 1 from rfl]
  omega

def NotBelow (limit : Nat) (value : UInt64) (_ : Nat) : Prop := limit ≤ value.toNat

section Compare

variable (old new : UInt64)

theorem value_halfWrittenCompare :
    (halfWritten still Mtimer.parkedCompare old new).value =
      joinHalves (highHalf new) Mtimer.parkedCompare := by
  show joinHalves (highHalf new) (lowHalf (joinHalves _ Mtimer.parkedCompare)) = _
  rw [lowHalf_joinHalves]

theorem value_writtenCompare : (written still Mtimer.parkedCompare old new).value = new := by
  show joinHalves (highHalf (halfWritten still Mtimer.parkedCompare old new).value)
    (lowHalf new) = new
  rw [value_halfWrittenCompare, highHalf_joinHalves, joinHalves_halves]

theorem notBelow_written :
    Always (NotBelow (min old.toNat new.toNat))
    (written still Mtimer.parkedCompare old new) := by
  have hstart : Always (NotBelow (min old.toNat new.toNat)) (start old) :=
    .start (Nat.min_le_left _ _)
  have hparking : Always (NotBelow (min old.toNat new.toNat))
      (parking still Mtimer.parkedCompare old) :=
    hstart.afterWrite (Nat.le_trans (Nat.min_le_left _ _) (le_parkedCompare old))
  have hhalf : Always (NotBelow (min old.toNat new.toNat))
      (halfWritten still Mtimer.parkedCompare old new) := by
    apply hparking.afterWrite
    show min old.toNat new.toNat ≤ (halfWritten still Mtimer.parkedCompare old new).value.toNat
    rw [value_halfWrittenCompare]
    exact Nat.le_trans (Nat.min_le_right _ _) (le_parkedCompare new)
  apply hhalf.afterWrite
  show min old.toNat new.toNat ≤ (written still Mtimer.parkedCompare old new).value.toNat
  rw [value_writtenCompare]
  exact Nat.min_le_right _ _

end Compare

/-!
# Writing a counter

It goes on between the writes.  With its low half at zero it has room for as many ticks as a
half can count, so that none of them is carried into the high half.
-/

theorem halves_add {value : UInt64} {count : Nat}
    (h : (lowHalf value).toNat + count < UInt32.size) :
    highHalf (value + UInt64.ofNat count) = highHalf value ∧
      (lowHalf (value + UInt64.ofNat count)).toNat = (lowHalf value).toNat + count := by
  have hticks : (value + UInt64.ofNat count - value).toNat = count := by
    rw [UInt64.add_comm, UInt64.add_sub_cancel, UInt64.toNat_ofNat', Nat.mod_eq_of_lt]
    simp only [UInt32.size] at h
    omega
  have hlater := @halves_later value (value + UInt64.ofNat count)
  rw [hticks] at hlater
  exact hlater h

/-- A counter is not above a limit that moves on with it. -/
def Bounded (limit : Nat) (value : UInt64) (elapsed : Nat) : Prop :=
  value.toNat ≤ limit + elapsed

theorem bounded_due {limit : Nat} {r : RunningRegister} (h : Always (Bounded limit) r)
    (pace : Nat → Nat) : Always (Bounded limit) (r.due pace) := by
  apply h.wait
  intro value elapsed hvalue
  unfold Bounded at hvalue ⊢
  rw [UInt64.toNat_add, show (1 : UInt64).toNat = 1 from rfl]
  omega

section Counter

variable {pace : Nat → Nat} (old new : UInt64)

theorem lowHalf_halfWrittenCounter (h : pace 1 < UInt32.size) :
    (lowHalf (halfWritten pace Mtimer.parkedTime old new).value).toNat = pace 1 := by
  have hzero : (lowHalf (parking pace Mtimer.parkedTime old).value).toNat = 0 := by
    rw [value_parking, lowHalf_joinHalves]
    rfl
  rw [value_halfWritten, lowHalf_joinHalves, (halves_add (by omega)).2, hzero, Nat.zero_add]

theorem value_writtenCounter (h : pace 1 + pace 2 < UInt32.size) :
    (written pace Mtimer.parkedTime old new).value = new := by
  have hroom : (lowHalf (halfWritten pace Mtimer.parkedTime old new).value).toNat + pace 2 <
      UInt32.size := by
    rw [lowHalf_halfWrittenCounter old new (by omega)]
    exact h
  rw [value_written, (halves_add hroom).1, value_halfWritten, highHalf_joinHalves,
    joinHalves_halves]

theorem bounded_parking :
    Always (Bounded (max old.toNat new.toNat)) (parking pace Mtimer.parkedTime old) := by
  have hstart : Always (Bounded (max old.toNat new.toNat)) (start old) :=
    .start (Nat.le_max_left _ _)
  apply (bounded_due hstart pace).afterWrite
  have hdue : ((start old).due pace).value.toNat ≤
      max old.toNat new.toNat + (parking pace Mtimer.parkedTime old).elapsed :=
    (bounded_due hstart pace).now
  have hhalves := toNat_halves ((start old).due pace).value
  show (parking pace Mtimer.parkedTime old).value.toNat ≤
    max old.toNat new.toNat + (parking pace Mtimer.parkedTime old).elapsed
  rw [value_parking, toNat_joinHalves, show Mtimer.parkedTime.toNat = 0 from rfl]
  omega

theorem bounded_halfWritten (h : pace 1 < UInt32.size) :
    Always (Bounded (max old.toNat new.toNat))
    (halfWritten pace Mtimer.parkedTime old new) := by
  apply (bounded_due (bounded_parking old new) pace).afterWrite
  show (halfWritten pace Mtimer.parkedTime old new).value.toNat ≤
    max old.toNat new.toNat + (halfWritten pace Mtimer.parkedTime old new).elapsed
  have hhigh : highHalf (halfWritten pace Mtimer.parkedTime old new).value = highHalf new := by
    rw [value_halfWritten, highHalf_joinHalves]
  have helapsed : (halfWritten pace Mtimer.parkedTime old new).elapsed =
      (parking pace Mtimer.parkedTime old).elapsed + pace 1 := by
    rw [halfWritten, elapsed_afterWrite, accesses_parking]
  have hhalves := toNat_halves new
  rw [toNat_halves (halfWritten pace Mtimer.parkedTime old new).value, hhigh,
    lowHalf_halfWrittenCounter old new h, helapsed]
  omega

theorem bounded_written (h : pace 1 + pace 2 < UInt32.size) :
    Always (Bounded (max old.toNat new.toNat)) (written pace Mtimer.parkedTime old new) := by
  apply (bounded_due (bounded_halfWritten old new (by omega)) pace).afterWrite
  show (written pace Mtimer.parkedTime old new).value.toNat ≤ _
  rw [value_writtenCounter old new h]
  exact Nat.le_trans (Nat.le_max_right _ _) (Nat.le_add_right _ _)

end Counter

/-!
# Both at once
-/

/-- While it is written by halves, a compare register is never below the smaller one of its old
and new values, so that the interrupt is not pending at any time before both.  A counter that
goes on between the writes, by less than a half can count, is never above the larger one and
the ticks so far.  Either holds the new value after the third write. -/
theorem quiet_while_written (pace : Nat → Nat) (old new : UInt64) :
    (∃ r, writeHalves Mtimer.parkedCompare new (write still .high) (write still .low)
        (start old) =
        .ok () r ∧ r.accesses = 3 ∧ r.value = new ∧
      (∀ moment ∈ r.history, min old.toNat new.toNat ≤ moment.value.toNat) ∧
      ∀ time, time < old → time < new → ∀ moment ∈ r.history, ¬moment.value ≤ time) ∧
    (pace 1 + pace 2 < UInt32.size →
      ∃ r, writeHalves Mtimer.parkedTime new (write pace .high) (write pace .low) (start old) =
          .ok () r ∧ r.accesses = 3 ∧ r.value = new ∧
        ∀ moment ∈ r.history,
          moment.value.toNat ≤ max old.toNat new.toNat + moment.elapsed) := by
  constructor
  · have hquiet := (notBelow_written old new).before
    refine ⟨_, writeHalves_start _ _ _ _, accesses_written _ _ _ _,
      value_writtenCompare old new, hquiet, ?_⟩
    intro time hold hnew moment hmem hpending
    have hmin : min old.toNat new.toNat ≤ moment.value.toNat := hquiet moment hmem
    rw [UInt64.lt_iff_toNat_lt] at hold hnew
    rw [UInt64.le_iff_toNat_le] at hpending
    omega
  · exact fun h => ⟨_, writeHalves_start _ _ _ _, accesses_written _ _ _ _,
      value_writtenCounter old new h, (bounded_written old new h).before⟩

theorem quiet_while_written_quickening :
    quickening 1 + quickening 2 < UInt32.size ∧
      ∃ compare counter : RunningRegister,
        writeHalves Mtimer.parkedCompare 0x300000005 (write still .high) (write still .low)
          (start 0x1fffffff0) = .ok () compare ∧
        (∀ moment ∈ compare.history, 0x1fffffff0 ≤ moment.value.toNat) ∧
        writeHalves Mtimer.parkedTime 0x300000005 (write quickening .high)
          (write quickening .low) (start 0x1fffffff0) = .ok () counter ∧
        ∀ moment ∈ counter.history, moment.value.toNat ≤ 0x300000005 + moment.elapsed := by
  have h : quickening 1 + quickening 2 < UInt32.size := by decide
  rcases quiet_while_written quickening 0x1fffffff0 0x300000005 with
    ⟨⟨compare, hcompare, _, _, hquiet, _⟩, hcounter⟩
  rcases hcounter h with ⟨counter, hwrite, _, _, hbelow⟩
  exact ⟨h, compare, counter, hcompare, hquiet, hwrite, hbelow⟩

end RunningRegister
end Interhart
