import Interhart.Bus

/-!
# Words and registers

A register of 64 bits lies at a multiple of its size and occupies two words.  So two such
registers are the same or have no word in common, and writing a word changes what is read at
its own address and nowhere else, whether counters lie there or not.
-/

namespace Interhart

/-!
# Aligned addresses
-/

section Alignment

variable {address other : UInt64}

theorem dvd_toNat_of_mod_eq_zero {word alignment : UInt64} (h : word % alignment = 0) :
    alignment.toNat ∣ word.toNat := by
  have hmod := congrArg UInt64.toNat h
  rw [UInt64.toNat_mod] at hmod
  exact Nat.dvd_of_mod_eq_zero hmod

theorem toNat_add_four (h : 8 ∣ address.toNat) : (address + 4).toNat = address.toNat + 4 := by
  have hlt := address.toNat_lt
  rw [UInt64.toNat_add, show (4 : UInt64).toNat = 4 from rfl]
  omega

theorem add_four_ne (address : UInt64) : address + 4 ≠ address := by
  intro h
  have hsame := congrArg UInt64.toNat h
  have hlt := address.toNat_lt
  rw [UInt64.toNat_add, show (4 : UInt64).toNat = 4 from rfl] at hsame
  omega

theorem ne_add_four (h : 8 ∣ address.toNat) (hother : 8 ∣ other.toNat) :
    other ≠ address + 4 := by
  intro hsame
  rw [hsame, toNat_add_four h] at hother
  omega

theorem mod_four_of_dvd (h : 4 ∣ address.toNat) : address % 4 = 0 :=
  UInt64.toNat_inj.mp (Nat.mod_eq_zero_of_dvd h)

theorem mod_eight_of_dvd (h : 8 ∣ address.toNat) : address % 8 = 0 :=
  UInt64.toNat_inj.mp (Nat.mod_eq_zero_of_dvd h)

theorem halves_mod_four (h : 8 ∣ address.toNat) : address % 4 = 0 ∧ (address + 4) % 4 = 0 := by
  constructor
  · apply mod_four_of_dvd
    omega
  · apply mod_four_of_dvd
    rw [toNat_add_four h]
    omega

end Alignment

/-!
# What a write leaves
-/

namespace Counter

variable (counter : Counter) (address other : UInt64) (word : UInt32)

@[simp] theorem address_setHalf : (counter.setHalf address word).address = counter.address := by
  unfold setHalf
  split
  · rfl
  · split
    · rfl
    · rfl

theorem half?_setHalf_self :
    (counter.setHalf address word).half? address =
      (counter.half? address).map fun _ => word := by
  unfold half?
  rw [address_setHalf]
  unfold setHalf
  by_cases hlow : address = counter.address
  · simp only [if_pos hlow, lowHalf_joinHalves, Option.map_some]
  · by_cases hhigh : address = counter.address + 4
    · simp only [if_neg hlow, if_pos hhigh, highHalf_joinHalves, Option.map_some]
    · simp only [if_neg hlow, if_neg hhigh, Option.map_none]

variable {address other} in
theorem half?_setHalf_of_ne (hne : other ≠ address) :
    (counter.setHalf address word).half? other = counter.half? other := by
  unfold half?
  rw [address_setHalf]
  unfold setHalf
  by_cases hlow : address = counter.address
  · rw [hlow] at hne
    simp only [if_pos hlow, if_neg hne, highHalf_joinHalves]
  · by_cases hhigh : address = counter.address + 4
    · rw [hhigh] at hne
      simp only [if_neg hlow, if_pos hhigh, if_neg hne, lowHalf_joinHalves]
    · simp only [if_neg hlow, if_neg hhigh]

end Counter

namespace Bus

variable {address other : UInt64}

theorem peek_poke_self (bus : Bus) (address : UInt64) (word : UInt32) :
    (bus.poke address word).peek address = word := by
  by_cases hcounter : bus.HasCounter address
  · rcases hcounter with ⟨counter, hmem, hhalf⟩
    have hsome : ∃ counter ∈ bus.counters, (counter.half? address).isSome = true :=
      ⟨counter, hmem, Option.isSome_iff_ne_none.mpr hhalf⟩
    have hword : ((·.half? address) ∘ (·.setHalf address word) : Counter → Option UInt32) =
        Option.map (fun _ => word) ∘ (·.half? address) := by
      funext counter
      exact counter.half?_setHalf_self address word
    unfold poke peek
    rw [if_pos (List.any_eq_true.mpr hsome)]
    dsimp only
    rw [List.findSome?_map, hword, ← List.map_findSome?]
    rcases Option.isSome_iff_exists.mp (List.findSome?_isSome_iff.mpr hsome) with ⟨half, hfound⟩
    rw [hfound, Option.map_some, Option.getD_some]
  · rw [poke_of_no_counter word hcounter, peek_of_no_counter]
    · exact if_pos rfl
    · exact hcounter

theorem peek_poke_of_ne (bus : Bus) (hne : other ≠ address) (word : UInt32) :
    (bus.poke address word).peek other = bus.peek other := by
  have hsame : ((·.half? other) ∘ (·.setHalf address word) : Counter → Option UInt32) =
      (·.half? other) := by
    funext counter
    exact counter.half?_setHalf_of_ne word hne
  unfold poke peek
  split
  · rw [List.findSome?_map, hsame]
  · dsimp only
    rw [if_neg hne]

end Bus
end Interhart
