import Interhart.Proofs.HartSet.Members
import Mathlib.Data.Nat.Bitwise

/-!
# Which harts a mask names

A mask of 64 bits names harts from its base on, and the base of all ones names every hart.  The
places of the mask are gone through here one by one, in words of 64 bits, and a sum of base and
place that no word holds names no hart.  This comes to the set that is decoded at once, so no
base is so large that a place wraps around to a low hart.
-/

namespace Interhart
namespace HartSet

/-!
# Place by place
-/

def sum? (a b : UInt64) : Option UInt64 := if a + b < a then none else some (a + b)

def insertNamed (mask base : UInt64) (s : HartSet) (place : Nat) : HartSet :=
  if mask &&& (1 <<< UInt64.ofNat place) = 0 then s
  else
    match sum? base (UInt64.ofNat place) with
    | none => s
    | some hart => if hart < UInt64.ofNat hartLimit then s.insert hart.toUInt32.toNat else s

def ofMaskByPlaces (mask base : UInt64) : HartSet :=
  if base = everyHart then full else (List.range 64).foldl (insertNamed mask base) empty

theorem toNat_place {place : Nat} (h : place < 64) : (UInt64.ofNat place).toNat = place :=
  UInt64.toNat_ofNat_of_lt (h.trans (by decide))

theorem and_bit_eq_zero_iff {place : Nat} (h : place < 64) (mask : UInt64) :
    mask &&& (1 <<< UInt64.ofNat place) = 0 ↔ ¬mask.toNat.testBit place = true := by
  have hpower : 2 ^ place < 2 ^ 64 := Nat.pow_lt_pow_right (by decide) h
  have hbit : (1 <<< UInt64.ofNat place : UInt64).toNat = 2 ^ place := by
    rw [UInt64.toNat_shiftLeft, toNat_place h, UInt64.toNat_one, Nat.mod_eq_of_lt h,
      Nat.one_shiftLeft, Nat.mod_eq_of_lt hpower]
  rw [← UInt64.toNat_inj, UInt64.toNat_and, hbit, Nat.and_two_pow, UInt64.toNat_zero]
  cases mask.toNat.testBit place with
  | false => simp
  | true => simp

theorem sum?_eq (a b : UInt64) :
    sum? a b = if a.toNat + b.toNat < UInt64.size then some (a + b) else none := by
  have ha := a.toNat_lt_size
  have hb := b.toNat_lt_size
  have hsize : UInt64.size = 2 ^ 64 := rfl
  unfold sum?
  simp only [UInt64.lt_iff_toNat_lt, UInt64.toNat_add]
  split
  · rw [if_neg (by omega)]
  · rw [if_pos (by omega)]

/-- A place whose bit is set names the hart that lies as far behind the base.  Where the sum is
beyond all words it is also beyond all harts. -/
theorem insertNamed_eq {place : Nat} (h : place < 64) (mask base : UInt64) (s : HartSet) :
    insertNamed mask base s place =
      if mask.toNat.testBit place = true then s.insert (base.toNat + place) else s := by
  have hlimit : (UInt64.ofNat hartLimit).toNat = hartLimit := rfl
  have hwords : hartLimit < UInt64.size := by decide
  unfold insertNamed
  rw [sum?_eq, toNat_place h]
  simp only [and_bit_eq_zero_iff h, ite_not]
  split
  · by_cases hword : base.toNat + place < UInt64.size
    · have hsum : (base + UInt64.ofNat place).toNat = base.toNat + place := by
        rw [UInt64.toNat_add, toNat_place h]
        exact Nat.mod_eq_of_lt hword
      rw [if_pos hword]
      simp only [UInt64.lt_iff_toNat_lt, hsum, hlimit]
      by_cases hhart : base.toNat + place < hartLimit
      · have hnumber : base.toNat + place < 2 ^ 32 := hhart.trans (by decide)
        rw [if_pos hhart, UInt64.toNat_toUInt32, hsum, Nat.mod_eq_of_lt hnumber]
      · rw [if_neg hhart, insert, if_neg hhart]
    · rw [if_neg hword, insert, if_neg (by omega)]
  · rfl

theorem mem_foldl_insertNamed (mask base : UInt64) {places : List Nat}
    (hplaces : ∀ place ∈ places, place < 64) (s : HartSet) (hart : Nat) :
    hart ∈ places.foldl (insertNamed mask base) s ↔
      hart ∈ s ∨
        (∃ place ∈ places, mask.toNat.testBit place = true ∧ base.toNat + place = hart) ∧
        hart < hartLimit := by
  induction places generalizing s with
  | nil => simp
  | cons first rest ih =>
      have hfirst := hplaces first List.mem_cons_self
      have hrest : ∀ place ∈ rest, place < 64 :=
        fun place hplace => hplaces place (List.mem_cons_of_mem first hplace)
      rw [List.foldl_cons, ih hrest, insertNamed_eq hfirst]
      by_cases hbit : mask.toNat.testBit first = true
      · simp only [hbit, if_true, mem_insert, List.exists_mem_cons_iff, true_and]
        constructor
        · rintro ((⟨rfl, hlimit⟩ | hs) | ⟨hnamed, hlimit⟩)
          · exact Or.inr ⟨Or.inl rfl, hlimit⟩
          · exact Or.inl hs
          · exact Or.inr ⟨Or.inr hnamed, hlimit⟩
        · rintro (hs | ⟨rfl | hnamed, hlimit⟩)
          · exact Or.inl (Or.inr hs)
          · exact Or.inl (Or.inl ⟨rfl, hlimit⟩)
          · exact Or.inr ⟨hnamed, hlimit⟩
      · simp [hbit]

theorem ofMaskByPlaces_eq (mask base : UInt64) :
    ofMaskByPlaces mask base = ofMask mask base := by
  apply ext_mem
  intro hart
  unfold ofMaskByPlaces
  rw [mem_ofMask]
  by_cases hbase : base = everyHart
  · simp [hbase]
  · rw [if_neg hbase, mem_foldl_insertNamed mask base fun place => List.mem_range.mp, mem_named]
    simp [hbase]

/-- The third place behind the last base but one does not come round to hart 0. -/
example : ofMaskByPlaces 0x4 0xfffffffffffffffe = empty := by decide +kernel

/-!
# Members
-/

theorem mem_ofMask_iff_testBit {mask base : UInt64} {hart : Nat} :
    hart ∈ ofMask mask base ↔
      hart < hartLimit ∧
        (base = everyHart ∨
          base.toNat ≤ hart ∧ hart - base.toNat < 64 ∧
            mask.toNat.testBit (hart - base.toNat) = true) := by
  rw [mem_ofMask, mem_named, and_comm]
  apply and_congr_right'
  apply or_congr_right
  constructor
  · rintro ⟨place, hplace, hbit, rfl⟩
    rw [Nat.add_sub_cancel_left]
    exact ⟨Nat.le_add_right _ _, hplace, hbit⟩
  · rintro ⟨hle, hplace, hbit⟩
    exact ⟨hart - base.toNat, hplace, hbit, Nat.add_sub_cancel' hle⟩

theorem ofMask_or (mask other base : UInt64) :
    ofMask (mask ||| other) base = (ofMask mask base).union (ofMask other base) := by
  apply ext_mem
  intro hart
  rw [mem_union]
  simp only [mem_ofMask_iff_testBit, UInt64.toNat_or, Nat.testBit_or, Bool.or_eq_true]
  tauto

/-- Whether all bits of a mask that are set still have a place when they are moved up. -/
def StaysWithin (mask shift : UInt64) : Prop :=
  ∀ place, mask.toNat.testBit place = true → place + shift.toNat < 64

theorem staysWithin_iff {mask shift : UInt64} :
    StaysWithin mask shift ↔ mask.toNat <<< shift.toNat < UInt64.size := by
  constructor
  · intro h
    change mask.toNat <<< shift.toNat < 2 ^ 64
    apply Nat.lt_pow_two_of_testBit
    intro place hplace
    rw [Nat.testBit_shiftLeft, Bool.and_eq_false_iff, decide_eq_false_iff_not]
    by_contra hbit
    rw [not_or, not_not, Bool.not_eq_false] at hbit
    have hroom := h _ hbit.2
    omega
  · intro hword place hbit
    have hpower : 2 ^ (place + shift.toNat) < 2 ^ 64 := by
      calc 2 ^ (place + shift.toNat)
          = 2 ^ place <<< shift.toNat := by rw [Nat.shiftLeft_eq, Nat.pow_add]
        _ ≤ mask.toNat <<< shift.toNat := by
            rw [Nat.shiftLeft_eq, Nat.shiftLeft_eq]
            exact Nat.mul_le_mul_right _ (Nat.ge_two_pow_of_testBit hbit)
        _ < 2 ^ 64 := hword
    exact (Nat.pow_lt_pow_iff_right (by decide)).mp hpower

instance (mask shift : UInt64) : Decidable (StaysWithin mask shift) :=
  decidable_of_iff _ staysWithin_iff.symm

theorem testBit_shiftLeft {mask shift : UInt64} (h : StaysWithin mask shift) (place : Nat) :
    (mask <<< shift).toNat.testBit place = true ↔
      shift.toNat ≤ place ∧ mask.toNat.testBit (place - shift.toNat) = true := by
  rw [UInt64.toNat_shiftLeft, Nat.testBit_mod_two_pow, Nat.testBit_shiftLeft]
  simp only [Bool.and_eq_true, decide_eq_true_eq]
  by_cases hword : shift.toNat < 64
  · rw [Nat.mod_eq_of_lt hword]
    constructor
    · exact fun hplace => hplace.2
    · intro hbit
      have hroom := h _ hbit.2
      exact ⟨by omega, hbit⟩
  · -- Such a shift is only lossless for a mask without bits.
    constructor
    · intro hbit
      have hroom := h _ hbit.2.2
      omega
    · intro hbit
      have hroom := h _ hbit.2
      omega

theorem ofMask_shiftLeft {mask base shift : UInt64} (hstays : StaysWithin mask shift)
    (hle : shift ≤ base) (hsome : base ≠ everyHart) :
    ofMask (mask <<< shift) (base - shift) = ofMask mask base := by
  have hbase := UInt64.toNat_sub_of_le base shift hle
  have hword : shift.toNat ≤ base.toNat := UInt64.le_iff_toNat_le.mp hle
  have hlowered : base - shift ≠ everyHart := by
    intro hevery
    apply hsome
    apply UInt64.toNat_inj.mp
    have hlast := base.toNat_lt
    rw [hevery] at hbase
    have hnumber : everyHart.toNat = 2 ^ 64 - 1 := rfl
    omega
  apply ext_mem
  intro hart
  simp only [mem_ofMask_iff_testBit, testBit_shiftLeft hstays, hbase, hsome, hlowered, false_or]
  have hplace : hart - (base.toNat - shift.toNat) - shift.toNat = hart - base.toNat := by omega
  rw [hplace]
  constructor
  · rintro ⟨hlimit, hbelow, -, hshift, hbit⟩
    have hroom := hstays _ hbit
    exact ⟨hlimit, by omega, by omega, hbit⟩
  · rintro ⟨hlimit, hbelow, -, hbit⟩
    have hroom := hstays _ hbit
    exact ⟨hlimit, by omega, by omega, by omega, hbit⟩

/-!
# What a mask decodes to
-/

/-- A mask decodes to exactly the harts below the limit whose places behind the base have their
bits set, and to all harts if the base is the last word; place by place, in words of 64 bits,
it decodes to the same set.  So two masks together name what each of them names, and a mask may
be moved up if its base is lowered as much. -/
theorem decoding_exact (mask base : UInt64) :
    ofMaskByPlaces mask base = ofMask mask base ∧
    (∀ hart, hart ∈ ofMask mask base ↔
      hart < hartLimit ∧
        (base = everyHart ∨
          base.toNat ≤ hart ∧ hart - base.toNat < 64 ∧
            mask.toNat.testBit (hart - base.toNat) = true)) ∧
    (∀ other, ofMask (mask ||| other) base = (ofMask mask base).union (ofMask other base)) ∧
    ∀ shift, StaysWithin mask shift → shift ≤ base → base ≠ everyHart →
      ofMask (mask <<< shift) (base - shift) = ofMask mask base :=
  ⟨ofMaskByPlaces_eq mask base, fun _ => mem_ofMask_iff_testBit,
    fun other => ofMask_or mask other base, fun _ => ofMask_shiftLeft⟩

theorem decoding_exact_at_limit :
    StaysWithin 0x7 6 ∧ ofMask 0x1c0 120 = ofMask 0x7 126 ∧
      127 ∈ ofMask 0x1c0 120 ∧ ¬128 ∈ ofMask 0x1c0 120 := by
  rcases decoding_exact 0x7 126 with ⟨-, hmem, -, hshift⟩
  have hstays : StaysWithin 0x7 6 := by decide
  have hmoved : ofMask 0x1c0 120 = ofMask 0x7 126 := hshift 6 hstays (by decide) (by decide)
  rw [hmoved, hmem, hmem]
  exact ⟨hstays, rfl, by decide, by decide⟩

end HartSet
end Interhart
