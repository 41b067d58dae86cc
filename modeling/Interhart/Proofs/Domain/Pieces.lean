import Interhart.Domain
import Mathlib.Data.Nat.Prime.Basic

/-!
# The pieces of a protected range

Protecting a range records one region for each of its pieces, in ascending order.  Where
the range starts at a multiple of eight, the region of a piece is the piece itself,
rounded up to a power of two, so the regions contain every address of the range and none
below it.
-/

namespace Interhart

theorem dvd_blockSize {order order' : Nat} (h : order ≤ order') :
    blockSize order ∣ blockSize order' := by
  unfold blockSize
  rw [Nat.one_shiftLeft, Nat.one_shiftLeft]
  exact Nat.pow_dvd_pow 2 h

theorem blockSize_minOrder : blockSize Region.minOrder = 8 := rfl

namespace Region

/-!
# Orders
-/

theorem le_blockSize_orderOf (size : Nat) : size ≤ blockSize (orderOf size) := by
  unfold orderOf
  by_cases hsmall : size ≤ 1
  · rw [if_pos hsmall]
    exact hsmall
  · rw [if_neg hsmall, blockSize, Nat.one_shiftLeft]
    have hlog := Nat.lt_log2_self (n := size - 1)
    omega

theorem orderOf_le {size order : Nat} (h : size ≤ blockSize order) : orderOf size ≤ order := by
  unfold orderOf
  by_cases hsmall : size ≤ 1
  · rw [if_pos hsmall]
    exact Nat.zero_le order
  · rw [blockSize, Nat.one_shiftLeft] at h
    rw [if_neg hsmall]
    exact (Nat.log2_lt (by omega)).mpr (by omega)

theorem minOrder_le_covering (base size : Nat) (flags : RegionFlags) :
    minOrder ≤ (covering base size flags).order := by
  unfold covering
  dsimp only
  split
  · rename_i order hfound
    have hmem := List.mem_of_find?_eq_some hfound
    exact (Nat.le_max_left _ _).trans (List.mem_range'_1.mp hmem).1
  · show minOrder ≤ addressBits
    decide

theorem covering_of_dvd {base size : Nat} (flags : RegionFlags)
    (hdvd : blockSize (max minOrder (orderOf size)) ∣ base)
    (horder : max minOrder (orderOf size) < addressBits) :
    covering base size flags = ⟨base, max minOrder (orderOf size), flags⟩ := by
  have hstart : blockStart base (max minOrder (orderOf size)) = base := Nat.div_mul_cancel hdvd
  have hsize : size ≤ blockSize (max minOrder (orderOf size)) :=
    (le_blockSize_orderOf size).trans
      (Nat.le_of_dvd (blockSize_pos _) (dvd_blockSize (Nat.le_max_right _ _)))
  unfold covering
  dsimp only
  obtain ⟨count, hcount⟩ := Nat.exists_eq_add_of_lt horder
  rw [show addressBits - max minOrder (orderOf size) = count + 1 by omega, List.range'_succ,
    List.find?_cons_of_pos]
  · simp only [hstart]
  · rw [hstart, decide_eq_true_eq]
    omega

/-!
# Addresses in a region
-/

theorem contains_iff_of_dvd {region : Region} (hdvd : blockSize region.order ∣ region.base)
    (horder : region.order < addressBits) {address : Nat} :
    region.contains address = true ↔
      region.base ≤ address ∧ address < region.base + blockSize region.order := by
  have hpos := blockSize_pos region.order
  obtain ⟨place, hplace⟩ := hdvd
  unfold contains blockStart
  rw [decide_eq_false (Nat.not_le.mpr horder), Bool.false_or, decide_eq_true_eq, hplace,
    Nat.mul_comm _ place, Nat.mul_left_inj (Nat.ne_of_gt hpos), Nat.div_eq_iff hpos]
  omega

theorem contains_add {region : Region} (horder : minOrder ≤ region.order) {register byte : Nat}
    (haligned : 8 ∣ register) (hbyte : byte < 8) :
    region.contains (register + byte) = region.contains register := by
  have hdvd := dvd_blockSize horder
  rw [blockSize_minOrder] at hdvd
  obtain ⟨rest, hrest⟩ := hdvd
  obtain ⟨place, rfl⟩ := haligned
  unfold contains blockStart
  rw [hrest, ← Nat.div_div_eq_div_mul, ← Nat.div_div_eq_div_mul, Nat.mul_add_div (by omega),
    Nat.div_eq_of_lt hbyte, Nat.add_zero, Nat.mul_div_cancel_left _ (by omega)]

end Region

namespace Domain

/-!
# Pieces as regions
-/

def pieces (position stop order : Nat) : List Region :=
  if position < stop then
    let region := Region.covering position (pieceSize position stop order) .protectedMmio
    if position + pieceSize position stop order < blockSize addressBits then
      region :: pieces (position + pieceSize position stop order) stop order
    else [region]
  else []
termination_by stop - position
decreasing_by
  have := pieceSize_pos order ‹position < stop›
  omega

def overruns (position stop order : Nat) : Bool :=
  if position < stop then
    if position + pieceSize position stop order < blockSize addressBits then
      overruns (position + pieceSize position stop order) stop order
    else true
  else false
termination_by stop - position
decreasing_by
  have := pieceSize_pos order ‹position < stop›
  omega

section Recording

variable {m : Type → Type} [Monad m] [LawfulMonad m] [MonadExceptOf Exit m]

theorem recordPieces_eq (record : Region → m Unit) (position stop order : Nat) :
    recordPieces record position stop order =
      (pieces position stop order).forM record >>= fun _ =>
        if overruns position stop order then throw (.fault .sumOverflow) else pure () := by
  fun_induction pieces position stop order with
  | case1 position hlt region hfits ih =>
      rw [recordPieces, overruns]
      simp only [hlt, hfits, if_true, List.forM, bind_assoc, ih, region]
  | case2 position hlt region hfits =>
      rw [recordPieces, overruns]
      simp [hlt, hfits, region]
  | case3 position hlt =>
      rw [recordPieces, overruns]
      simp [hlt]

end Recording

theorem exists_covering_of_mem_pieces {position stop order : Nat} {region : Region}
    (h : region ∈ pieces position stop order) :
    ∃ base size, region = Region.covering base size .protectedMmio := by
  fun_induction pieces position stop order with
  | case1 position hlt region hfits ih =>
      rcases List.mem_cons.mp h with rfl | hrest
      · exact ⟨_, _, rfl⟩
      · exact ih hrest
  | case2 position hlt region hfits =>
      rw [List.mem_singleton.mp h]
      exact ⟨_, _, rfl⟩
  | case3 position hlt => cases h

theorem flags_of_mem_pieces {position stop order : Nat} {region : Region}
    (h : region ∈ pieces position stop order) : region.flags = .protectedMmio := by
  rcases exists_covering_of_mem_pieces h with ⟨base, size, rfl⟩
  exact Region.flags_covering base size _

theorem minOrder_le_of_mem_pieces {position stop order : Nat} {region : Region}
    (h : region ∈ pieces position stop order) : Region.minOrder ≤ region.order := by
  rcases exists_covering_of_mem_pieces h with ⟨base, size, rfl⟩
  exact Region.minOrder_le_covering base size _

theorem dvd_next {unit position stop order : Nat} (hunit : unit ∣ blockSize order)
    (hstart : unit ∣ position) (hmore : position + pieceSize position stop order < stop) :
    unit ∣ position + pieceSize position stop order := by
  unfold pieceSize at hmore ⊢
  split
  · rename_i hwhole
    rw [if_pos hwhole] at hmore
    rw [show min (stop - position) (blockSize order) = blockSize order by omega]
    exact Nat.dvd_add hstart hunit
  · exact Nat.dvd_add hstart (Nat.dvd_gcd hstart hunit)

/-- A block that is recorded for a piece of a range: it starts in the range, at a multiple of a
unit, and is as large as the piece there, rounded up. -/
structure IsPiece (unit position stop order : Nat) (region : Region) : Prop where
  position_le : position ≤ region.base
  base_lt : region.base < stop
  unit_dvd : unit ∣ region.base
  order_eq : region.order =
    max Region.minOrder (Region.orderOf (pieceSize region.base stop order))
  order_le : region.order ≤ order
  dvd_base : blockSize region.order ∣ region.base

namespace IsPiece

variable {unit position stop order : Nat} {region : Region}

theorem earlier {start : Nat} (h : IsPiece unit position stop order region)
    (hstart : start ≤ position) : IsPiece unit start stop order region :=
  { h with position_le := hstart.trans h.position_le }

theorem contains_iff (h : IsPiece unit position stop order region) (hhigh : order < addressBits)
    {address : Nat} :
    region.contains address = true ↔
      region.base ≤ address ∧ address < region.base + blockSize region.order :=
  Region.contains_iff_of_dvd h.dvd_base (h.order_le.trans_lt hhigh)

theorem contains_base (h : IsPiece unit position stop order region)
    (hhigh : order < addressBits) : region.contains region.base = true :=
  (h.contains_iff hhigh).mpr ⟨Nat.le_refl _, Nat.lt_add_of_pos_right (blockSize_pos _)⟩

end IsPiece

/-!
# Ranges that start at a multiple of eight
-/

section Aligned

variable {position stop order : Nat} (hlow : Region.minOrder ≤ order) (haligned : 8 ∣ position)

include hlow

theorem eight_dvd_blockSize : 8 ∣ blockSize order := dvd_blockSize hlow

include haligned

variable (stop) in
theorem dvd_of_pieceSize :
    max Region.minOrder (Region.orderOf (pieceSize position stop order)) ≤ order ∧
      blockSize (max Region.minOrder (Region.orderOf (pieceSize position stop order))) ∣
        position := by
  unfold pieceSize
  split
  · rename_i hwhole
    have horder : Region.orderOf (min (stop - position) (blockSize order)) ≤ order :=
      Region.orderOf_le (Nat.min_le_right _ _)
    refine ⟨Nat.max_le.mpr ⟨hlow, horder⟩, ?_⟩
    exact (dvd_blockSize (Nat.max_le.mpr ⟨hlow, horder⟩)).trans (Nat.dvd_of_mod_eq_zero hwhole)
  · have hpower : Nat.gcd position (blockSize order) ∣ 2 ^ order := by
      rw [← Nat.one_shiftLeft]
      exact Nat.gcd_dvd_right _ _
    rcases (Nat.dvd_prime_pow Nat.prime_two).mp hpower with ⟨k, hk, hsize⟩
    rw [← Nat.one_shiftLeft] at hsize
    have horder : Region.orderOf (Nat.gcd position (blockSize order)) ≤ k :=
      Region.orderOf_le (Nat.le_of_eq hsize)
    refine ⟨Nat.max_le.mpr ⟨hlow, horder.trans hk⟩, ?_⟩
    rcases Nat.le_total (Region.orderOf (Nat.gcd position (blockSize order))) Region.minOrder
      with hle | hle
    · rw [Nat.max_eq_left hle]
      exact haligned
    · rw [Nat.max_eq_right hle]
      have hdvd : blockSize k ∣ position := by
        rw [show blockSize k = _ from hsize.symm]
        exact Nat.gcd_dvd_left _ _
      exact (dvd_blockSize horder).trans hdvd

theorem contains_piece (hhigh : order < addressBits) {address : Nat}
    (hposition : position ≤ address)
    (haddress : address < position + pieceSize position stop order) :
    (Region.covering position (pieceSize position stop order) .protectedMmio).contains address =
      true := by
  rcases dvd_of_pieceSize stop hlow haligned with ⟨horder, hdvd⟩
  have hsize := (Region.le_blockSize_orderOf (pieceSize position stop order)).trans
    (Nat.le_of_dvd (blockSize_pos _) (dvd_blockSize (Nat.le_max_right Region.minOrder _)))
  rw [Region.covering_of_dvd .protectedMmio hdvd (horder.trans_lt hhigh)]
  refine (Region.contains_iff_of_dvd hdvd (horder.trans_lt hhigh)).mpr ⟨hposition, ?_⟩
  exact haddress.trans_le (Nat.add_le_add_left hsize position)

omit haligned in
theorem isPiece_covering {unit : Nat} (hbytes : 8 ∣ unit) (hstart : unit ∣ position)
    (hhigh : order < addressBits) (hlt : position < stop) :
    IsPiece unit position stop order
      (Region.covering position (pieceSize position stop order) .protectedMmio) := by
  rcases dvd_of_pieceSize stop hlow (hbytes.trans hstart) with ⟨horder, hdvd⟩
  rw [Region.covering_of_dvd .protectedMmio hdvd (horder.trans_lt hhigh)]
  exact ⟨Nat.le_refl _, hlt, hstart, rfl, horder, hdvd⟩

theorem exists_mem_pieces (hhigh : order < addressBits) (hstop : stop ≤ blockSize addressBits)
    {address : Nat} (hposition : position ≤ address) (haddress : address < stop) :
    ∃ region ∈ pieces position stop order, region.contains address = true := by
  fun_induction pieces position stop order with
  | case1 position hlt region hfits ih =>
      by_cases hhere : address < position + pieceSize position stop order
      · exact ⟨region, List.mem_cons_self,
          contains_piece hlow haligned hhigh hposition hhere⟩
      · have hnext := dvd_next (eight_dvd_blockSize hlow) haligned
          (show position + pieceSize position stop order < stop by omega)
        rcases ih hnext (by omega) with ⟨found, hmem, hfound⟩
        exact ⟨found, List.mem_cons_of_mem _ hmem, hfound⟩
  | case2 position hlt region hfits =>
      exact ⟨region, List.mem_cons_self,
        contains_piece hlow haligned hhigh hposition (by omega)⟩
  | case3 position hlt => omega

omit haligned in
theorem isPiece_of_mem_pieces {unit : Nat} (hbytes : 8 ∣ unit) (hunit : unit ∣ blockSize order)
    (hstart : unit ∣ position) (hhigh : order < addressBits) {region : Region}
    (hmem : region ∈ pieces position stop order) : IsPiece unit position stop order region := by
  fun_induction pieces position stop order with
  | case1 position hlt first hfits ih =>
      rcases List.mem_cons.mp hmem with rfl | hrest
      · exact isPiece_covering hlow hbytes hstart hhigh hlt
      · by_cases hmore : position + pieceSize position stop order < stop
        · exact (ih (dvd_next hunit hstart hmore) hrest).earlier (Nat.le_add_right _ _)
        · rw [pieces, if_neg hmore] at hrest
          cases hrest
  | case2 position hlt first hfits =>
      rw [List.mem_singleton.mp hmem]
      exact isPiece_covering hlow hbytes hstart hhigh hlt
  | case3 position hlt => cases hmem

theorem add_blockSize_le_of_not_overruns (hhigh : order ≤ addressBits)
    (hstop : stop = lastAddress) (hlt : position < stop)
    (hends : overruns position stop order = false) :
    position + blockSize order ≤ blockSize addressBits := by
  fun_induction overruns position stop order with
  | case1 position hposition hfits ih =>
      by_cases hwhole : position % blockSize order = 0
      · rcases dvd_blockSize hhigh with ⟨count, hcount⟩
        obtain ⟨place, rfl⟩ := Nat.dvd_of_mod_eq_zero hwhole
        rw [hcount] at hfits ⊢
        have hplace : place < count := by
          have hsize := pieceSize_pos order hposition
          have hproduct : blockSize order * place < blockSize order * count := by omega
          exact Nat.lt_of_mul_lt_mul_left hproduct
        calc blockSize order * place + blockSize order
            = blockSize order * (place + 1) := (Nat.mul_succ _ _).symm
          _ ≤ blockSize order * count := Nat.mul_le_mul_left _ hplace
      · have hnext : 8 ∣ position + pieceSize position stop order := by
          unfold pieceSize
          rw [if_neg hwhole]
          exact Nat.dvd_add haligned (Nat.dvd_gcd haligned (eight_dvd_blockSize hlow))
        have hend : position + pieceSize position stop order ≠ lastAddress := by
          intro heq
          rw [heq] at hnext
          revert hnext
          decide
        have hlast : lastAddress + 1 = blockSize addressBits := rfl
        have hrest := ih hnext (by omega) hends
        omega
  | case2 => cases hends
  | case3 => omega

end Aligned

/-!
# Ranges
-/

def rangeRegions (largest : Nat) (range : UInt64 × UInt64) : List Region :=
  pieces range.1.toNat (min (range.1.toNat + range.2.toNat) lastAddress) largest.log2

def rangeOverruns (largest : Nat) (range : UInt64 × UInt64) : Bool :=
  overruns range.1.toNat (min (range.1.toNat + range.2.toNat) lastAddress) largest.log2

structure IsLimit (largest : Nat) : Prop where
  blockSize_log2 : blockSize largest.log2 = largest
  minOrder_le : Region.minOrder ≤ largest.log2
  log2_lt : largest.log2 < addressBits

namespace IsLimit

variable {largest : Nat} (h : IsLimit largest)

include h

theorem pos : 0 < largest := by
  rw [← h.blockSize_log2]
  exact blockSize_pos _

theorem eight_dvd : 8 ∣ largest := by
  rw [← h.blockSize_log2]
  exact eight_dvd_blockSize h.minOrder_le

end IsLimit

theorem isLimit_of_isPowerOfTwo {largest : UInt64} (hpower : isPowerOfTwo largest.toNat = true)
    (hlargest : 8 ≤ largest.toNat) : IsLimit largest.toNat := by
  have hne : largest.toNat ≠ 0 := by omega
  constructor
  · unfold isPowerOfTwo at hpower
    rw [Bool.and_eq_true, beq_iff_eq] at hpower
    exact hpower.2
  · exact (Nat.le_log2 hne).mpr hlargest
  · exact (Nat.log2_lt hne).mpr largest.toNat_lt

/-- Whether an address lies in a range, which is cut off at the last address. -/
def InRange (range : UInt64 × UInt64) (address : Nat) : Prop :=
  range.1.toNat ≤ address ∧ address < range.1.toNat + range.2.toNat ∧ address ≤ lastAddress

instance (range : UInt64 × UInt64) (address : Nat) : Decidable (InRange range address) :=
  inferInstanceAs (Decidable (_ ∧ _ ∧ _))

section Ranges

variable {largest : Nat} {range : UInt64 × UInt64} {region : Region} (hlimit : IsLimit largest)

include hlimit

theorem isPiece_of_mem_rangeRegions {unit : Nat} (hbytes : 8 ∣ unit) (hunit : unit ∣ largest)
    (hstart : unit ∣ range.1.toNat) (hmem : region ∈ rangeRegions largest range) :
    IsPiece unit range.1.toNat (min (range.1.toNat + range.2.toNat) lastAddress) largest.log2
      region := by
  rw [← hlimit.blockSize_log2] at hunit
  exact isPiece_of_mem_pieces hlimit.minOrder_le hbytes hunit hstart hlimit.log2_lt hmem

variable (haligned : 8 ∣ range.1.toNat)

include haligned

/-- The pieces end before the last address, but the region of the last piece does not: it
contains all of the eight bytes in which that piece ends. -/
theorem exists_contains_of_inRange {address : Nat} (h : InRange range address) :
    ∃ region ∈ rangeRegions largest range, region.contains address = true := by
  rcases h with ⟨hstart, hend, hlast⟩
  have hstop : lastAddress = 2 ^ 64 - 1 := rfl
  have hword : 8 ∣ 8 * (address / 8) := Nat.dvd_mul_right 8 _
  have hwithin : 8 * (address / 8) < min (range.1.toNat + range.2.toNat) lastAddress := by omega
  have hbound : min (range.1.toNat + range.2.toNat) lastAddress ≤ blockSize addressBits :=
    (Nat.min_le_right _ _).trans (Nat.sub_le _ _)
  rcases exists_mem_pieces hlimit.minOrder_le haligned hlimit.log2_lt hbound (by omega) hwithin
    with ⟨region, hmem, hcontains⟩
  have hrest := Region.contains_add (minOrder_le_of_mem_pieces hmem) hword
    (Nat.mod_lt address (by decide))
  rw [Nat.div_add_mod, hcontains] at hrest
  exact ⟨region, hmem, hrest⟩

theorem le_of_mem_rangeRegions (hmem : region ∈ rangeRegions largest range) {address : Nat}
    (hcontains : region.contains address = true) : range.1.toNat ≤ address := by
  have hpiece := isPiece_of_mem_rangeRegions hlimit (Nat.dvd_refl 8) hlimit.eight_dvd
    haligned hmem
  exact hpiece.position_le.trans ((hpiece.contains_iff hlimit.log2_lt).mp hcontains).1

theorem blockSize_le_of_mem_rangeRegions (hmem : region ∈ rangeRegions largest range) :
    blockSize region.order ≤ largest ∧
      ∃ address, InRange range address ∧ region.contains address = true := by
  have hpiece := isPiece_of_mem_rangeRegions hlimit (Nat.dvd_refl 8) hlimit.eight_dvd
    haligned hmem
  constructor
  · calc blockSize region.order
        ≤ blockSize largest.log2 :=
          Nat.le_of_dvd (blockSize_pos _) (dvd_blockSize hpiece.order_le)
      _ = largest := hlimit.blockSize_log2
  · have hbase := Nat.lt_min.mp hpiece.base_lt
    exact ⟨region.base, ⟨hpiece.position_le, hbase.1, Nat.le_of_lt hbase.2⟩,
      hpiece.contains_base hlimit.log2_lt⟩

theorem add_blockSize_le_of_not_rangeOverruns (hcut : 2 ^ 64 ≤ range.1.toNat + range.2.toNat)
    (hends : rangeOverruns largest range = false) :
    range.1.toNat + blockSize largest.log2 ≤ 2 ^ 64 := by
  have hword := range.1.toNat_lt
  have hlast : lastAddress = 2 ^ 64 - 1 := rfl
  exact add_blockSize_le_of_not_overruns hlimit.minOrder_le haligned
    (Nat.le_of_lt hlimit.log2_lt) (by omega) (by omega) hends

end Ranges

end Domain
end Interhart
