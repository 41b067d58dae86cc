import Interhart.Proofs.Domain.Growth

/-!
# The smallest block that covers a range

A range is covered by the smallest block in which it fits.  The search for it is repeated here
in words of 64 bits: a block starts where the low bits of an address are masked off, the end of
the range stops at the last address, and an order that has no smaller neighbour is found by
trying one after the other.  The words never overflow, and they come to the same block.
-/

namespace Interhart
namespace Region

/-!
# Blocks in words

A value is missing where the arithmetic of words would overflow.
-/

def shiftedOne? (order : Nat) : Option UInt64 :=
  if order < addressBits then some (1 <<< UInt64.ofNat order) else none

def difference? (a b : UInt64) : Option UInt64 := if b ≤ a then some (a - b) else none

def saturatingSum (a b : UInt64) : UInt64 := if a + b < a then 0xffffffffffffffff else a + b

def maskedStart? (address : UInt64) (order : Nat) : Option UInt64 := do
  let size ← shiftedOne? order
  let mask ← difference? size 1
  return address &&& ~~~mask

def orderInWords (size : UInt64) : Nat :=
  ((List.range addressBits).find? fun order => decide (size ≤ 1 <<< UInt64.ofNat order)).getD
    addressBits

def searchInWords (base stop : UInt64) (flags : RegionFlags) (order : Nat) : Option Region :=
  if order < addressBits then do
    let start ← maskedStart? base order
    let taken ← difference? stop start
    let size ← shiftedOne? order
    if taken ≤ size then some ⟨start.toNat, order, flags⟩
    else searchInWords base stop flags (order + 1)
  else some ⟨0, addressBits, flags⟩
termination_by addressBits - order

def coveringInWords (base size : UInt64) (flags : RegionFlags) : Option Region :=
  searchInWords base (saturatingSum base size) flags (max minOrder (orderInWords size))

def containsInWords (region : Region) (address : UInt64) : Option Bool :=
  if addressBits ≤ region.order then some true
  else do
    let start ← maskedStart? address region.order
    return start.toNat == region.base

theorem toNat_shiftedOne {order : Nat} (h : order < addressBits) :
    (1 <<< UInt64.ofNat order : UInt64).toNat = blockSize order := by
  have hword : order < 64 := h
  have hpower : 2 ^ order < 2 ^ 64 := Nat.pow_lt_pow_right (by decide) hword
  rw [UInt64.toNat_shiftLeft, UInt64.toNat_ofNat', UInt64.toNat_one,
    Nat.mod_eq_of_lt (hword.trans (by decide)), Nat.mod_eq_of_lt hword, Nat.one_shiftLeft,
    Nat.mod_eq_of_lt hpower, blockSize, Nat.one_shiftLeft]

theorem toNat_saturatingSum (a b : UInt64) :
    (saturatingSum a b).toNat = min (a.toNat + b.toNat) lastAddress := by
  have hlast : lastAddress = 2 ^ 64 - 1 := rfl
  have ha := a.toNat_lt
  have hb := b.toNat_lt
  unfold saturatingSum
  simp only [UInt64.lt_iff_toNat_lt, UInt64.toNat_add]
  split
  · change 2 ^ 64 - 1 = _
    omega
  · rw [UInt64.toNat_add]
    omega

theorem toNat_and_not_mask {order : Nat} (address : UInt64) {mask : UInt64}
    (hmask : mask.toNat = 2 ^ order - 1) :
    (address &&& ~~~mask).toNat = blockStart address.toNat order := by
  have hword := address.toNat_lt
  have hlow := mask.toNat_lt
  have hsize : UInt64.size - 1 - mask.toNat = 2 ^ 64 - (mask.toNat + 1) := by
    change 2 ^ 64 - 1 - mask.toNat = _
    omega
  unfold blockStart blockSize
  rw [Nat.one_shiftLeft]
  apply Nat.eq_of_testBit_eq
  intro place
  rw [UInt64.toNat_and, UInt64.toNat_not, hsize, Nat.testBit_and,
    Nat.testBit_two_pow_sub_succ hlow, hmask, Nat.testBit_two_pow_sub_one,
    Nat.testBit_mul_two_pow, Nat.testBit_div_two_pow]
  by_cases hplace : order ≤ place
  · by_cases hhigh : place < 64
    · simp [hplace, hhigh, Nat.sub_add_cancel hplace]
    · have hsmall : address.toNat < 2 ^ place :=
        hword.trans_le (Nat.pow_le_pow_right (by decide) (Nat.not_lt.mp hhigh))
      have hzero : address.toNat.testBit place = false := Nat.testBit_lt_two_pow hsmall
      simp [hzero, Nat.sub_add_cancel hplace]
  · simp [hplace, Nat.not_le.mp hplace]

theorem maskedStart?_eq {order : Nat} (h : order < addressBits) (address : UInt64) :
    ∃ start, maskedStart? address order = some start ∧
      start.toNat = blockStart address.toNat order := by
  have hsize := toNat_shiftedOne h
  have hone : (1 : UInt64) ≤ 1 <<< UInt64.ofNat order := by
    rw [UInt64.le_iff_toNat_le, hsize]
    exact blockSize_pos order
  refine ⟨address &&& ~~~(1 <<< UInt64.ofNat order - 1), ?_, ?_⟩
  · simp [maskedStart?, shiftedOne?, difference?, h, hone]
  · apply toNat_and_not_mask
    rw [UInt64.toNat_sub_of_le _ _ hone, hsize, blockSize, Nat.one_shiftLeft]
    rfl

theorem containsInWords_eq (region : Region) (address : UInt64) :
    containsInWords region address = some (region.contains address.toNat) := by
  unfold containsInWords contains
  by_cases hwhole : addressBits ≤ region.order
  · simp [hwhole]
  · rcases maskedStart?_eq (Nat.not_le.mp hwhole) address with ⟨start, hstart, hnumber⟩
    simp [hwhole, hstart, hnumber, Bool.beq_eq_decide_eq]

theorem orderInWords_eq (size : UInt64) : orderInWords size = orderOf size.toNat := by
  have hword : size.toNat ≤ blockSize addressBits := Nat.le_of_lt size.toNat_lt
  have hfits {order : Nat} (h : order < addressBits) :
      size ≤ 1 <<< UInt64.ofNat order ↔ orderOf size.toNat ≤ order := by
    rw [UInt64.le_iff_toNat_le, toNat_shiftedOne h]
    constructor
    · exact orderOf_le
    · intro hle
      exact (le_blockSize_orderOf size.toNat).trans
        (Nat.le_of_dvd (blockSize_pos order) (dvd_blockSize hle))
  unfold orderInWords
  by_cases hsmall : orderOf size.toNat < addressBits
  · rw [List.find?_range_eq_some.mpr, Option.getD_some]
    refine ⟨decide_eq_true ((hfits hsmall).mpr (Nat.le_refl _)), List.mem_range.mpr hsmall, ?_⟩
    intro order horder
    rw [Bool.not_eq_true', decide_eq_false_iff_not, hfits (horder.trans hsmall)]
    exact Nat.not_le.mpr horder
  · have hlast : orderOf size.toNat = addressBits :=
      Nat.le_antisymm (orderOf_le hword) (Nat.not_lt.mp hsmall)
    rw [List.find?_range_eq_none.mpr, Option.getD_none, hlast]
    intro order horder
    rw [Bool.not_eq_true', decide_eq_false_iff_not, hfits horder, hlast]
    exact Nat.not_le.mpr horder

/-!
# The search

A range fits in the block of an order in which it starts, or it does not.  The search tries the
orders from the smallest one on that has room for as many bytes.
-/

def Fits (base size order : Nat) : Prop :=
  min (base + size) lastAddress - blockStart base order ≤ blockSize order

instance (base size order : Nat) : Decidable (Fits base size order) :=
  inferInstanceAs (Decidable (_ ≤ _))

def searched (base size : Nat) (flags : RegionFlags) (lowest : Nat) : Region :=
  match (List.range' lowest (addressBits - lowest)).find? fun order =>
    decide (Fits base size order)
  with
  | some order => ⟨blockStart base order, order, flags⟩
  | none => ⟨0, addressBits, flags⟩

theorem covering_eq_searched (base size : Nat) (flags : RegionFlags) :
    covering base size flags = searched base size flags (max minOrder (orderOf size)) := rfl

theorem searched_of_fits {base size order : Nat} (flags : RegionFlags)
    (hlt : order < addressBits) (h : Fits base size order) :
    searched base size flags order = ⟨blockStart base order, order, flags⟩ := by
  obtain ⟨count, hcount⟩ := Nat.exists_eq_add_of_lt hlt
  unfold searched
  rw [show addressBits - order = count + 1 by omega, List.range'_succ]
  simp only [List.find?_cons, decide_eq_true h]

theorem searched_of_not_fits {base size order : Nat} (flags : RegionFlags)
    (hlt : order < addressBits) (h : ¬Fits base size order) :
    searched base size flags order = searched base size flags (order + 1) := by
  obtain ⟨count, hcount⟩ := Nat.exists_eq_add_of_lt hlt
  unfold searched
  rw [show addressBits - order = count + 1 by omega, List.range'_succ,
    show addressBits - (order + 1) = count by omega]
  simp only [List.find?_cons, decide_eq_false h]

theorem searched_of_le {base size order : Nat} (flags : RegionFlags) (h : addressBits ≤ order) :
    searched base size flags order = ⟨0, addressBits, flags⟩ := by
  unfold searched
  rw [Nat.sub_eq_zero_of_le h]
  rfl

theorem searchInWords_eq {base size stop : UInt64}
    (hstop : stop.toNat = min (base.toNat + size.toNat) lastAddress) (flags : RegionFlags)
    (order : Nat) :
    searchInWords base stop flags order =
      some (searched base.toNat size.toNat flags order) := by
  have hlast : base.toNat ≤ lastAddress := Nat.le_sub_one_of_lt base.toNat_lt
  fun_induction searchInWords base stop flags order with
  | case1 order hlt ih =>
      rcases maskedStart?_eq hlt base with ⟨start, hstart, hnumber⟩
      have hsize := toNat_shiftedOne hlt
      have hle : start ≤ stop := by
        have hbase := blockStart_le base.toNat order
        rw [UInt64.le_iff_toNat_le, hnumber, hstop]
        omega
      have hfits : stop - start ≤ 1 <<< UInt64.ofNat order ↔
          Fits base.toNat size.toNat order := by
        rw [UInt64.le_iff_toNat_le, UInt64.toNat_sub_of_le _ _ hle, hstop, hnumber, hsize]
        rfl
      simp only [hstart, difference?, shiftedOne?, hle, hlt, if_true, Option.bind_eq_bind,
        Option.bind_some, hfits]
      by_cases h : Fits base.toNat size.toNat order
      · rw [if_pos h, searched_of_fits flags hlt h, hnumber]
      · rw [if_neg h, searched_of_not_fits flags hlt h]
        exact ih
  | case2 order hle =>
      rw [searched_of_le flags (Nat.not_lt.mp hle)]

theorem coveringInWords_eq (base size : UInt64) (flags : RegionFlags) :
    coveringInWords base size flags = some (covering base.toNat size.toNat flags) := by
  rw [coveringInWords, searchInWords_eq (toNat_saturatingSum base size), orderInWords_eq,
    covering_eq_searched]

/-- The search ends with a block in which the range fits, unless it ends with the whole address
space, and it has passed over smaller blocks only where the range does not fit. -/
theorem covering_spec (base size : Nat) (flags : RegionFlags) :
    ((covering base size flags).order < addressBits →
      (covering base size flags).base = blockStart base (covering base size flags).order ∧
        Fits base size (covering base size flags).order) ∧
    ∀ order, max minOrder (orderOf size) ≤ order → order < (covering base size flags).order →
      ¬Fits base size order := by
  rw [covering_eq_searched]
  unfold searched
  split
  · rename_i found hfound
    rcases List.find?_range'_eq_some.mp hfound with ⟨hfits, -, hsmaller⟩
    refine ⟨fun _ => ⟨rfl, of_decide_eq_true hfits⟩, ?_⟩
    intro order hlow hlt
    simpa using hsmaller order hlow hlt
  · rename_i hnone
    rw [List.find?_range'_eq_none] at hnone
    refine ⟨fun h => absurd h (Nat.lt_irrefl _), ?_⟩
    intro order hlow hlt
    change order < addressBits at hlt
    simpa using hnone order hlow (by omega)

/-!
# Blocks that cover a range
-/

/-- A region covers a range if it contains all addresses of the range, or, if the range is
empty, the address at which it starts. -/
def Covers (region : Region) (range : UInt64 × UInt64) : Prop :=
  ∀ address, Domain.InRange range address ∨ (range.2 = 0 ∧ address = range.1.toNat) →
    region.contains address = true

namespace Natural

variable {region : Region} (h : region.Natural)

include h

theorem contains_iff {address : Nat} (hword : address ≤ lastAddress) :
    region.contains address = true ↔
      region.base ≤ address ∧ address < region.base + blockSize region.order := by
  by_cases hwhole : region.order < addressBits
  · exact contains_iff_of_dvd h.dvd_base hwhole
  · have horder : region.order = addressBits :=
      Nat.le_antisymm h.order_le (Nat.not_lt.mp hwhole)
    have hlast : lastAddress < blockSize addressBits := Nat.sub_one_lt (by decide)
    rw [h.base_eq_zero horder, horder, contains, horder]
    simp [hword.trans_lt hlast]

end Natural

section Covering

variable (base size : UInt64) (flags : RegionFlags)

theorem covers_covering : (covering base.toNat size.toNat flags).Covers (base, size) := by
  have hnatural := natural_covering base.toNat size.toNat flags
  have hspec := (covering_spec base.toNat size.toNat flags).1
  generalize covering base.toNat size.toNat flags = region at *
  have hlast : lastAddress = 2 ^ 64 - 1 := rfl
  have hword : base.toNat ≤ lastAddress := Nat.le_sub_one_of_lt base.toNat_lt
  intro address haddress
  have hrange : base.toNat ≤ address ∧ address ≤ lastAddress := by
    rcases haddress with ⟨hstart, -, hend⟩ | ⟨-, rfl⟩
    · exact ⟨hstart, hend⟩
    · exact ⟨Nat.le_refl _, hword⟩
  refine (hnatural.contains_iff hrange.2).mpr ?_
  by_cases hwhole : region.order < addressBits
  · rcases hspec hwhole with ⟨hbase, hfits⟩
    have hlower := blockStart_le base.toNat region.order
    have hupper := lt_blockStart_add base.toNat region.order
    -- A block of eight bytes or more does not end in front of the last address.
    have height : 8 ∣ region.base + blockSize region.order :=
      (dvd_blockSize hnatural.minOrder_le).trans
        (Nat.dvd_add hnatural.dvd_base (Nat.dvd_refl _))
    unfold Fits at hfits
    rw [hbase] at height ⊢
    rcases haddress with ⟨hstart, hend, -⟩ | ⟨-, rfl⟩
    · change address < base.toNat + size.toNat at hend
      omega
    · exact ⟨hlower, hupper⟩
  · have horder : region.order = addressBits :=
      Nat.le_antisymm hnatural.order_le (Nat.not_lt.mp hwhole)
    have hsize : blockSize addressBits = 2 ^ 64 := rfl
    rw [hnatural.base_eq_zero horder, horder, hsize]
    omega

theorem not_covers_of_lt (hend : base.toNat + size.toNat ≤ blockSize addressBits)
    {smaller : Region} (hnatural : smaller.Natural)
    (hlt : smaller.order < (covering base.toNat size.toNat flags).order) :
    ¬smaller.Covers (base, size) := by
  intro hcovers
  have hlast : lastAddress + 1 = blockSize addressBits := rfl
  have hword : base.toNat < blockSize addressBits := base.toNat_lt
  have hhigh : smaller.order < addressBits :=
    hlt.trans_le (natural_covering base.toNat size.toNat flags).order_le
  have hfirst : smaller.contains base.toNat = true := by
    apply hcovers
    by_cases hsize : size.toNat = 0
    · exact Or.inr ⟨UInt64.toNat_inj.mp hsize, rfl⟩
    · refine Or.inl ⟨Nat.le_refl _, ?_, ?_⟩
      · change base.toNat < base.toNat + size.toNat
        omega
      · omega
  have hbase : blockStart base.toNat smaller.order = smaller.base := by
    unfold contains at hfirst
    rw [decide_eq_false (Nat.not_le.mpr hhigh), Bool.false_or] at hfirst
    exact of_decide_eq_true hfirst
  have hlower := blockStart_le base.toNat smaller.order
  have hupper := lt_blockStart_add base.toNat smaller.order
  -- The last address of the range lies in the block, so the range fits in it.
  have hreach : base.toNat + size.toNat ≤ smaller.base + blockSize smaller.order := by
    by_cases hsize : size.toNat = 0
    · omega
    · have hinside : smaller.contains (base.toNat + size.toNat - 1) = true := by
        apply hcovers
        refine Or.inl ⟨?_, ?_, ?_⟩
        · change base.toNat ≤ base.toNat + size.toNat - 1
          omega
        · change base.toNat + size.toNat - 1 < base.toNat + size.toNat
          omega
        · omega
      have hbounds := (hnatural.contains_iff (by omega)).mp hinside
      omega
  have hfits : Fits base.toNat size.toNat smaller.order := by
    unfold Fits
    omega
  have hroom : max minOrder (orderOf size.toNat) ≤ smaller.order :=
    Nat.max_le.mpr ⟨hnatural.minOrder_le, orderOf_le (by omega)⟩
  exact (covering_spec base.toNat size.toNat flags).2 smaller.order hroom hlt hfits

/-- The block that is found for a range is naturally aligned, of order 3 to 64, and contains
the addresses from its start on, as many as its size says.  It covers the range, cut off at the
end of the address space; if the range ends within the address space, no smaller block does.
In words of 64 bits the search finds the same block, and nothing overflows. -/
theorem smallest_covering :
    ∃ region, coveringInWords base size flags = some region ∧
      region = covering base.toNat size.toNat flags ∧ region.flags = flags ∧ region.Natural ∧
      (∀ address : UInt64,
        containsInWords region address = some (region.contains address.toNat) ∧
        (region.contains address.toNat = true ↔
          region.base ≤ address.toNat ∧
            address.toNat < region.base + blockSize region.order)) ∧
      region.Covers (base, size) ∧
      (base.toNat + size.toNat ≤ blockSize addressBits →
        ∀ smaller : Region, smaller.Natural → smaller.order < region.order →
          ¬smaller.Covers (base, size)) := by
  have hnatural := natural_covering base.toNat size.toNat flags
  refine ⟨_, coveringInWords_eq base size flags, rfl, flags_covering _ _ flags, hnatural, ?_,
    covers_covering base size flags, ?_⟩
  · intro address
    refine ⟨containsInWords_eq _ address, hnatural.contains_iff ?_⟩
    exact Nat.le_sub_one_of_lt address.toNat_lt
  · intro hend smaller hsmaller hlt
    exact not_covers_of_lt base size flags hend hsmaller hlt

end Covering

theorem smallest_covering_astride :
    coveringInWords 0x1ff8 0x10 .protectedMmio = some ⟨0, 14, .protectedMmio⟩ ∧
      ¬(⟨0, 13, .protectedMmio⟩ : Region).Covers (0x1ff8, 0x10) := by
  rcases smallest_covering 0x1ff8 0x10 .protectedMmio with
    ⟨region, hfound, hcovering, -, -, -, -, hsmallest⟩
  have hregion : region = ⟨0, 14, .protectedMmio⟩ := hcovering.trans (by decide)
  subst hregion
  refine ⟨hfound, hsmallest (by decide) _ ?_ (by decide)⟩
  constructor
  all_goals decide

end Region
end Interhart
