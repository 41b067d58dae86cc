import Interhart.Proofs.Registers.Halves
import Interhart.Proofs.Registers.Words

/-!
# Live registers

A register is live if every access to it makes it go on, a little but not far.  It may be
reached through anything that registers can be read through, and go on unevenly.  Reading it
always comes to an end, and what is read is what it held at some time during the reading.
-/

namespace Interhart

/-!
# Going on
-/

def GoesOn (limit : Nat) (early late : UInt64) : Prop :=
  0 < (late - early).toNat ∧ (late - early).toNat < limit

instance (limit : Nat) (early late : UInt64) : Decidable (GoesOn limit early late) :=
  inferInstanceAs (Decidable (_ ∧ _))

section GoingOn

variable {early middle late : UInt64}

theorem toNat_sub_of_stretches
    (h : (middle - early).toNat + (late - middle).toNat < UInt64.size) :
    (late - early).toNat = (middle - early).toNat + (late - middle).toNat := by
  have hsum : late - early = (middle - early) + (late - middle) := by grind
  rw [hsum, UInt64.toNat_add, Nat.mod_eq_of_lt h]

theorem GoesOn.further {limit limit' : Nat} (h : GoesOn limit early middle)
    (h' : (late - middle).toNat < limit') (hroom : limit + limit' ≤ UInt64.size) :
    GoesOn (limit + limit') early late := by
  rcases h with ⟨hpos, hlt⟩
  have hfits : (middle - early).toNat + (late - middle).toNat < UInt64.size := by omega
  have htotal := toNat_sub_of_stretches hfits
  exact ⟨by omega, by omega⟩

theorem GoesOn.mono {limit limit' : Nat} (h : GoesOn limit early late) (hle : limit ≤ limit') :
    GoesOn limit' early late :=
  ⟨h.1, Nat.lt_of_lt_of_le h.2 hle⟩

end GoingOn

/-!
# Accesses
-/

section Accesses

variable {σ α : Type}

/-- Where all is well, an access succeeds, gives a view of what the register holds just then,
and makes the register go on.  All is still well then. -/
def LiveAccess (good : σ → Prop) (shown : σ → UInt64) (access : EStateM Exit σ α)
    (view : UInt64 → α) : Prop :=
  ∀ s, good s → access s = .ok (view (shown s)) (finalState access s) ∧
    good (finalState access s) ∧ GoesOn (2 ^ 29) (shown s) (shown (finalState access s))

structure LiveRegister [ReadsRegisters (EStateM Exit σ)] (good : σ → Prop) (address : UInt64)
    (shown : σ → UInt64) : Prop where
  whole : LiveAccess good shown (ReadsRegisters.read64 address : EStateM Exit σ UInt64) id
  low : LiveAccess good shown (ReadsRegisters.read32 address : EStateM Exit σ UInt32) lowHalf
  high :
    LiveAccess good shown (ReadsRegisters.read32 (address + 4) : EStateM Exit σ UInt32) highHalf

end Accesses

section Reading

variable {σ : Type} {good : σ → Prop} {shown : σ → UInt64}
  {readHigh readLow : EStateM Exit σ UInt32}

def inRounds (readHigh readLow : EStateM Exit σ UInt32) (s : σ) : Nat → σ
  | 0 => s
  | n + 1 =>
      finalState (if n % 3 = 1 then readLow else readHigh) (inRounds readHigh readLow s n)

variable (hhigh : LiveAccess good shown readHigh highHalf)
  (hlow : LiveAccess good shown readLow lowHalf) {s : σ} (hs : good s)

include hhigh hlow hs

theorem good_inRounds (n : Nat) : good (inRounds readHigh readLow s n) := by
  induction n with
  | zero => exact hs
  | succ n ih =>
      unfold inRounds
      split
      · exact (hlow _ ih).2.1
      · exact (hhigh _ ih).2.1

theorem goesOn_inRounds (n : Nat) :
    GoesOn (2 ^ 29) (shown (inRounds readHigh readLow s n))
      (shown (inRounds readHigh readLow s (n + 1))) := by
  have hgood := good_inRounds hhigh hlow hs n
  rw [inRounds]
  split
  · exact (hlow _ hgood).2.2
  · exact (hhigh _ hgood).2.2

theorem rounds_inRounds : Rounds readHigh readLow shown (inRounds readHigh readLow s) where
  high n hn := by
    rw [inRounds, if_neg hn]
    exact (hhigh _ (good_inRounds hhigh hlow hs n)).1
  low n hn := by
    rw [inRounds, if_pos hn]
    exact (hlow _ (good_inRounds hhigh hlow hs n)).1

end Reading

section Registers

variable {σ : Type} [ReadsRegisters (EStateM Exit σ)] {good : σ → Prop} {address : UInt64}
  {shown : σ → UInt64}

theorem read_of_aligned (haligned : 8 ∣ address.toNat) (access : RegisterAccess) :
    (access.read address : EStateM Exit σ UInt64) =
      match access with
      | .whole => ReadsRegisters.read64 address
      | .halves =>
          readHalves (ReadsRegisters.read32 (address + 4)) (ReadsRegisters.read32 address) := by
  cases access with
  | whole => exact if_pos (mod_eight_of_dvd haligned)
  | halves =>
      rcases halves_mod_four haligned with ⟨hlow, hhigh⟩
      unfold RegisterAccess.read load32
      rw [if_pos hlow, if_pos hhigh]

theorem LiveRegister.read (h : LiveRegister good address shown) (haligned : 8 ∣ address.toNat)
    (access : RegisterAccess) {s : σ} (hs : good s) :
    ∃ value t, (access.read address : EStateM Exit σ UInt64) s = .ok value t ∧ good t ∧
      (value - shown s).toNat < 2 ^ 31 ∧ GoesOn (2 ^ 30) value (shown t) := by
  rw [read_of_aligned haligned]
  cases access with
  | whole =>
      rcases h.whole s hs with ⟨hread, hgood, hon⟩
      refine ⟨shown s, _, hread, hgood, ?_, hon.mono (by decide)⟩
      rw [UInt64.sub_self]
      decide
  | halves =>
      have hgood := good_inRounds h.high h.low hs
      have hon := goesOn_inRounds h.high h.low hs
      have hrounds := rounds_inRounds h.high h.low hs
      have htwo (n : Nat) := (hon n).further (hon (n + 1)).2 (by decide)
      have hfour := (htwo 0).further (htwo 2).2 (by decide)
      rcases readHalves_of_rounds hrounds fun n _ => (hon n).2 with hread | hread
      · exact ⟨_, _, hread, hgood 3, ((hon 0).mono (by decide)).2, htwo 1⟩
      · exact ⟨_, _, hread, hgood 6, hfour.2, htwo 4⟩

end Registers

/-!
# Counters on the bus

Where several counters have a part in a register, the first of them is read.
-/

def Counter.touches (counter : Counter) (address : UInt64) : Bool :=
  (counter.half? address).isSome || (counter.half? (address + 4)).isSome

theorem Counter.isSome_half?_tick (counter : Counter) (address place : UInt64) :
    ((counter.tick place).half? address).isSome = (counter.half? address).isSome := by
  unfold tick
  split
  · unfold half?
    dsimp only
    split
    · rfl
    · split
      · rfl
      · rfl
  · rfl

theorem Counter.touches_tick (counter : Counter) (address place : UInt64) :
    (counter.tick place).touches address = counter.touches address := by
  rw [touches, isSome_half?_tick, isSome_half?_tick]
  rfl

namespace Bus

variable {bus : Bus} {address place : UInt64} {counter : Counter}

/-- The counter that is read lies just at the register, and goes on when it is
read, but not far. -/
def Runs (bus : Bus) (address : UInt64) : Prop :=
  ∃ counter, bus.counters.find? (·.touches address) = some counter ∧ counter.address = address ∧
    0 < counter.step.toNat ∧ counter.step.toNat < 2 ^ 29

theorem peek_of_first (hfirst : bus.counters.find? (·.touches address) = some counter)
    (hplace : place = address ∨ place = address + 4) {half : UInt32}
    (hhalf : counter.half? place = some half) : bus.peek place = half := by
  rcases List.find?_eq_some_iff_append.mp hfirst with ⟨_, before, after, hcounters, hapart⟩
  have hnone : before.findSome? (·.half? place) = none := by
    rw [List.findSome?_eq_none_iff]
    intro other hmem
    have hother := hapart other hmem
    simp only [Counter.touches, Bool.not_or, Bool.and_eq_true, Bool.not_eq_true',
      Option.isSome_eq_false_iff, Option.isNone_iff_eq_none] at hother
    rcases hplace with rfl | rfl
    · exact hother.1
    · exact hother.2
  rw [peek, hcounters, List.findSome?_append, hnone, List.findSome?_cons, hhalf]
  rfl

theorem peek64_of_first (hfirst : bus.counters.find? (·.touches address) = some counter)
    (haddress : counter.address = address) : bus.peek64 address = counter.value := by
  have hlow : counter.half? address = some (lowHalf counter.value) := if_pos haddress.symm
  have hhigh : counter.half? (address + 4) = some (highHalf counter.value) := by
    rw [Counter.half?, haddress, if_neg (add_four_ne address), if_pos rfl]
  rw [peek64, peek_of_first hfirst (.inl rfl) hlow, peek_of_first hfirst (.inr rfl) hhigh,
    joinHalves_halves]

theorem first_tick (hfirst : bus.counters.find? (·.touches address) = some counter)
    (place : UInt64) :
    (bus.tick place).counters.find? (·.touches address) = some (counter.tick place) := by
  have hsame : ((·.touches address) ∘ (·.tick place) : Counter → Bool) = (·.touches address) :=
    funext fun other => other.touches_tick address place
  rw [tick, List.find?_map, hsame, hfirst, Option.map_some]

theorem Runs.tick (h : bus.Runs address) (hplace : place = address ∨ place = address + 4) :
    (bus.tick place).Runs address ∧
      GoesOn (2 ^ 29) (bus.peek64 address) ((bus.tick place).peek64 address) := by
  rcases h with ⟨counter, hfirst, rfl, hpos, hlt⟩
  have hticked :
      counter.tick place = { counter with value := counter.value + counter.step } := by
    unfold Counter.tick
    rw [if_pos]
    rcases hplace with rfl | rfl
    · rw [Counter.half?, if_pos rfl]
      rfl
    · rw [Counter.half?, if_neg (add_four_ne _), if_pos rfl]
      rfl
  have hnext := first_tick hfirst place
  rw [hticked] at hnext
  refine ⟨⟨_, hnext, rfl, hpos, hlt⟩, ?_⟩
  rw [peek64_of_first hfirst rfl, peek64_of_first hnext rfl, GoesOn, UInt64.add_comm,
    UInt64.add_sub_cancel]
  exact ⟨hpos, hlt⟩

end Bus
end Interhart
