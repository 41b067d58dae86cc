import Interhart.Proofs.Domain.Coverage

/-!
# Pieces that hang over the end of a range

A range could be protected by a single region, the smallest one that covers all of it.  Divided
into pieces it mostly takes up less.  The exception is a range that starts off the limit of a
piece: its first piece is as large as the start is aligned, however short the range is.  Where
the range takes up no more than half of that piece, the piece is recorded alone, and it is
larger than the single region.

Of two blocks that share an address, the one of smaller order lies within the other.  So it is
enough to compare orders.
-/

namespace Interhart

theorem two_mul_blockSize_le {order order' : Nat} (h : order < order') :
    2 * blockSize order ≤ blockSize order' := by
  have hsucc : blockSize (order + 1) = 2 * blockSize order := by
    unfold blockSize
    rw [Nat.one_shiftLeft, Nat.one_shiftLeft, Nat.pow_succ, Nat.mul_comm]
  rw [← hsucc]
  exact Nat.le_of_dvd (blockSize_pos order') (dvd_blockSize h)

namespace Region

/-!
# Regions within regions
-/

def Within (inner outer : Region) : Prop :=
  ∀ address, inner.contains address = true → outer.contains address = true

theorem contains_iff_div_eq {region : Region} (hhigh : region.order < addressBits)
    {shared : Nat} (hshared : region.contains shared = true) {address : Nat} :
    region.contains address = true ↔
      address / blockSize region.order = shared / blockSize region.order := by
  unfold contains at hshared ⊢
  rw [decide_eq_false (Nat.not_le.mpr hhigh), Bool.false_or, decide_eq_true_eq] at hshared ⊢
  rw [← hshared]
  exact Nat.mul_left_inj (Nat.ne_of_gt (blockSize_pos region.order))

theorem le_of_contains_of_dvd {region : Region} (hhigh : region.order < addressBits)
    {start address : Nat} (hstart : region.contains start = true)
    (hdvd : blockSize region.order ∣ start) (haddress : region.contains address = true) :
    start ≤ address := by
  have hlower := Nat.div_mul_le_self address (blockSize region.order)
  rw [(contains_iff_div_eq hhigh hstart).mp haddress, Nat.div_mul_cancel hdvd] at hlower
  exact hlower

theorem within_iff_order_le {inner outer : Region} (hhigh : inner.order < addressBits)
    {shared : Nat} (hinner : inner.contains shared = true)
    (houter : outer.contains shared = true) :
    inner.Within outer ↔ inner.order ≤ outer.order := by
  constructor
  · intro hwithin
    by_contra hlt
    have hsmaller : outer.order < inner.order := Nat.not_le.mp hlt
    have hpos := blockSize_pos outer.order
    have hsizes := two_mul_blockSize_le hsmaller
    -- The first two blocks of the smaller size in the larger block are not the same one.
    have hinside (rest : Nat) (hrest : rest < blockSize inner.order) :
        (shared / blockSize inner.order * blockSize inner.order + rest) /
            blockSize outer.order =
          shared / blockSize outer.order := by
      apply (contains_iff_div_eq (hsmaller.trans hhigh) houter).mp
      apply hwithin
      rw [contains_iff_div_eq hhigh hinner, Nat.mul_comm,
        Nat.mul_add_div (blockSize_pos inner.order), Nat.div_eq_of_lt hrest, Nat.add_zero]
    have hfirst := hinside 0 (by omega)
    have hsecond := hinside (blockSize outer.order) (by omega)
    rw [Nat.add_zero] at hfirst
    rw [Nat.add_div_right _ hpos, hfirst] at hsecond
    exact Nat.succ_ne_self _ hsecond
  · intro hle address haddress
    by_cases houterHigh : outer.order < addressBits
    · rw [contains_iff_div_eq hhigh hinner] at haddress
      rw [contains_iff_div_eq houterHigh houter]
      rcases dvd_blockSize hle with ⟨count, hcount⟩
      rw [hcount, ← Nat.div_div_eq_div_mul, ← Nat.div_div_eq_div_mul, haddress]
    · unfold contains
      rw [decide_eq_true (Nat.not_lt.mp houterHigh), Bool.true_or]

/-!
# The single region of a range
-/

theorem orderOf_mono {size size' : Nat} (h : size ≤ size') : orderOf size ≤ orderOf size' :=
  orderOf_le (h.trans (le_blockSize_orderOf size'))

theorem blockSize_orderOf_lt {size : Nat} (h : 1 < size) :
    blockSize (orderOf size) < 2 * size := by
  unfold orderOf blockSize
  rw [if_neg (Nat.not_le.mpr h), Nat.one_shiftLeft, Nat.pow_succ]
  have hlog := Nat.log2_self_le (n := size - 1) (by omega)
  omega

theorem orderOf_le_covering {base size : Nat} (flags : RegionFlags)
    (hfits : base + size ≤ lastAddress) : orderOf size ≤ (covering base size flags).order := by
  have hsize : size ≤ blockSize addressBits :=
    (Nat.le_add_left size base).trans (hfits.trans (Nat.sub_le _ _))
  unfold covering
  dsimp only
  split
  · rename_i order hfound
    have horder := List.mem_range'_1.mp (List.mem_of_find?_eq_some hfound)
    exact (Nat.le_max_right _ _).trans horder.1
  · exact orderOf_le hsize

theorem contains_covering {base size : Nat} (flags : RegionFlags)
    (hfits : base + size ≤ lastAddress) {address : Nat} (hstart : base ≤ address)
    (hend : address < base + size) :
    (covering base size flags).contains address = true := by
  unfold covering
  dsimp only
  split
  · rename_i order hfound
    have horder := List.mem_range'_1.mp (List.mem_of_find?_eq_some hfound)
    have hroom := List.find?_some hfound
    rw [decide_eq_true_eq, Nat.min_eq_left hfits] at hroom
    have hbase := blockStart_le base order
    have hhigh : order < addressBits := by omega
    refine (contains_iff_of_dvd (dvd_blockStart base order) hhigh).mpr
      ⟨show blockStart base order ≤ address by omega, ?_⟩
    show address < blockStart base order + blockSize order
    omega
  · rfl

end Region

namespace Domain

/-!
# The orders of pieces
-/

/-- Whether a range starts off the limit of a piece and takes up no more than half of the
largest block that can start there. -/
def Overhangs (base size largest : Nat) : Prop :=
  ¬largest ∣ base ∧ 2 * size ≤ Nat.gcd base largest

instance (base size largest : Nat) : Decidable (Overhangs base size largest) :=
  inferInstanceAs (Decidable (_ ∧ _))

section Orders

variable {base size largest : Nat} {region : Region} (hlimit : IsLimit largest)
  (hbase : 8 ∣ base) (hsome : 8 ≤ size) (hfits : base + size ≤ lastAddress)
  (hmem : region ∈ pieces base (base + size) largest.log2)

include hlimit hbase hmem

theorem isPiece_of_mem : IsPiece 8 base (base + size) largest.log2 region :=
  isPiece_of_mem_pieces hlimit.minOrder_le (Nat.dvd_refl 8)
    (eight_dvd_blockSize hlimit.minOrder_le) hbase hlimit.log2_lt hmem

section Fitting

include hfits

theorem contains_base_of_mem :
    region.contains region.base = true ∧
      (Region.covering base size .protectedMmio).contains region.base = true := by
  have hpiece := isPiece_of_mem hlimit hbase hmem
  constructor
  · exact hpiece.contains_base hlimit.log2_lt
  · exact Region.contains_covering .protectedMmio hfits hpiece.position_le hpiece.base_lt

theorem order_le_of_dvd (hdvd : largest ∣ region.base) :
    region.order ≤ (Region.covering base size .protectedMmio).order := by
  have hpiece := isPiece_of_mem hlimit hbase hmem
  have hpieceSize : pieceSize region.base (base + size) largest.log2 ≤ size := by
    have hstart := hpiece.position_le
    unfold pieceSize
    rw [hlimit.blockSize_log2, if_pos (Nat.mod_eq_zero_of_dvd hdvd)]
    omega
  rw [hpiece.order_eq]
  apply Nat.max_le.mpr
  constructor
  · exact Region.minOrder_le_covering _ _ _
  · exact (Region.orderOf_mono hpieceSize).trans (Region.orderOf_le_covering _ hfits)

theorem base_eq_of_lt (hlt : (Region.covering base size .protectedMmio).order < region.order) :
    region.base = base := by
  have hpiece := isPiece_of_mem hlimit hbase hmem
  have hhigh := hlt.trans (hpiece.order_le.trans_lt hlimit.log2_lt)
  have hdvd := (dvd_blockSize (Nat.le_of_lt hlt)).trans hpiece.dvd_base
  have hown := Region.contains_covering .protectedMmio hfits (Nat.le_refl base)
    (hpiece.position_le.trans_lt hpiece.base_lt)
  have hshared := (contains_base_of_mem hlimit hbase hfits hmem).2
  exact Nat.le_antisymm (Region.le_of_contains_of_dvd hhigh hshared hdvd hown)
    hpiece.position_le

theorem overhangs_of_lt
    (hlt : (Region.covering base size .protectedMmio).order < region.order) :
    Overhangs base size largest := by
  have hpiece := isPiece_of_mem hlimit hbase hmem
  have hfirst := base_eq_of_lt hlimit hbase hfits hmem hlt
  constructor
  · intro hdvd
    have hle := order_le_of_dvd hlimit hbase hfits hmem (hfirst.symm ▸ hdvd)
    omega
  · have hblock : blockSize region.order ∣ Nat.gcd base largest := by
      have hlargest := dvd_blockSize hpiece.order_le
      rw [hlimit.blockSize_log2] at hlargest
      exact Nat.dvd_gcd (hfirst ▸ hpiece.dvd_base) hlargest
    have hpos : 0 < Nat.gcd base largest := Nat.gcd_pos_of_pos_right base hlimit.pos
    have hsize : size ≤ blockSize (Region.covering base size .protectedMmio).order :=
      (Region.le_blockSize_orderOf size).trans
        (Nat.le_of_dvd (blockSize_pos _) (dvd_blockSize (Region.orderOf_le_covering _ hfits)))
    calc 2 * size
        ≤ 2 * blockSize (Region.covering base size .protectedMmio).order :=
          Nat.mul_le_mul_left 2 hsize
      _ ≤ blockSize region.order := two_mul_blockSize_le hlt
      _ ≤ Nat.gcd base largest := Nat.le_of_dvd hpos hblock

end Fitting

include hsome

theorem lt_of_overhangs (h : Overhangs base size largest) :
    (Region.covering base size .protectedMmio).order < region.order := by
  rcases h with ⟨hoff, hhalf⟩
  have hpieceSize : pieceSize base (base + size) largest.log2 = Nat.gcd base largest := by
    unfold pieceSize
    rw [hlimit.blockSize_log2, if_neg fun hzero => hoff (Nat.dvd_of_mod_eq_zero hzero)]
  have honly : region = Region.covering base (Nat.gcd base largest) .protectedMmio := by
    have hrest : pieces (base + Nat.gcd base largest) (base + size) largest.log2 = [] := by
      rw [pieces, if_neg (by omega)]
    rw [pieces, if_pos (by omega)] at hmem
    dsimp only at hmem
    rw [hpieceSize, hrest, ite_self] at hmem
    exact List.mem_singleton.mp hmem
  rcases dvd_of_pieceSize (base + size) hlimit.minOrder_le hbase with ⟨horder, hdvd⟩
  rw [hpieceSize] at horder hdvd
  have hhigh := horder.trans_lt hlimit.log2_lt
  have hle : max Region.minOrder (Region.orderOf size) ≤
      max Region.minOrder (Region.orderOf (Nat.gcd base largest)) := by
    have hmono := Region.orderOf_mono (show size ≤ Nat.gcd base largest by omega)
    omega
  rw [honly, Region.covering_of_dvd _ hdvd hhigh,
    Region.covering_of_dvd _ ((dvd_blockSize hle).trans hdvd) (hle.trans_lt hhigh)]
  apply Nat.lt_of_le_of_ne hle
  intro hsame
  have hsmall : blockSize (max Region.minOrder (Region.orderOf size)) < 2 * size := by
    rcases Nat.le_total (Region.orderOf size) Region.minOrder with hmin | hmin
    · rw [Nat.max_eq_left hmin, blockSize_minOrder]
      omega
    · rw [Nat.max_eq_right hmin]
      exact Region.blockSize_orderOf_lt (by omega)
  have hlarge : Nat.gcd base largest ≤
      blockSize (max Region.minOrder (Region.orderOf (Nat.gcd base largest))) :=
    (Region.le_blockSize_orderOf _).trans
      (Nat.le_of_dvd (blockSize_pos _) (dvd_blockSize (Nat.le_max_right _ _)))
  rw [← hsame] at hlarge
  omega

include hfits

theorem within_covering_iff_of_mem :
    region.Within (Region.covering base size .protectedMmio) ↔
      ¬Overhangs base size largest := by
  have hpiece := isPiece_of_mem hlimit hbase hmem
  rcases contains_base_of_mem hlimit hbase hfits hmem with ⟨hown, hsingle⟩
  rw [Region.within_iff_order_le (hpiece.order_le.trans_lt hlimit.log2_lt) hown hsingle]
  constructor
  · intro hle hoverhangs
    have hlt := lt_of_overhangs hlimit hbase hsome hmem hoverhangs
    omega
  · intro hfitting
    by_contra hlt
    exact hfitting (overhangs_of_lt hlimit hbase hfits hmem (Nat.not_le.mp hlt))

end Orders

theorem Grown.find?_eq {before after : Domain} {asked : List Region}
    (h : Grown before asked after) {address : Nat}
    (houtside : ∀ region ∈ asked, region.contains address = false) :
    after.find? address = before.find? address := by
  cases hold : before.find? address with
  | some region => exact find?_of_prefix h.keeps hold
  | none =>
      apply List.find?_eq_none.mpr
      intro region hmem
      rcases h.origin region hmem with hbefore | hasked
      · exact List.find?_eq_none.mp hold region hbefore
      · rw [houtside region hasked]
        decide

end Domain

namespace Bench

/-- Which regions that protecting a range adds lie within the single region of the
range: all of them, unless the range overhangs.  Then it takes no address away that
the single region leaves. -/
theorem within_covering_iff {b : Bench} {base size largest : UInt64} (hbase : 8 ∣ base.toNat)
    (hsize : 8 ∣ size.toNat) (hsome : 0 < size.toNat)
    (hfits : base.toNat + size.toNat < 2 ^ 64)
    (hpower : Domain.isPowerOfTwo largest.toNat = true) (hlargest : 8 ≤ largest.toNat) :
    (∀ region ∈ (finalState (protectRange base size largest.toNat) b).domain.regions,
      region ∉ b.domain.regions →
        (region.Within (.covering base.toNat size.toNat .protectedMmio) ↔
          ¬Domain.Overhangs base.toNat size.toNat largest.toNat)) ∧
    (¬Domain.Overhangs base.toNat size.toNat largest.toNat →
      ∀ address,
        (Region.covering base.toNat size.toNat .protectedMmio).contains address = false →
          (finalState (protectRange base size largest.toNat) b).domain.find? address =
            b.domain.find? address) := by
  have hgrown := grown_protectRange b base size largest.toNat
  have hlimit := Domain.isLimit_of_isPowerOfTwo hpower hlargest
  have hlast : base.toNat + size.toNat ≤ lastAddress := Nat.le_sub_one_of_lt hfits
  have hword : 8 ≤ size.toNat := Nat.le_of_dvd hsome hsize
  have hwithin : ∀ region ∈ Domain.rangeRegions largest.toNat (base, size),
      (region.Within (.covering base.toNat size.toNat .protectedMmio) ↔
        ¬Domain.Overhangs base.toNat size.toNat largest.toNat) := by
    intro region hmem
    unfold Domain.rangeRegions at hmem
    rw [Nat.min_eq_left hlast] at hmem
    exact Domain.within_covering_iff_of_mem hlimit hbase hword hlast hmem
  constructor
  · intro region hmem hnew
    rcases hgrown.origin region hmem with hold | hasked
    · exact absurd hold hnew
    · exact hwithin region hasked
  · intro hfitting address houtside
    apply hgrown.find?_eq
    intro region hasked
    rw [← Bool.not_eq_true] at houtside ⊢
    exact fun hcontains => houtside ((hwithin region hasked).mpr hfitting address hcontains)

def protectHalfPage : BenchM Unit := protectRange 0x1800 0x808 (0x1000 : UInt64).toNat

theorem within_covering_iff_halfPage :
    ¬Domain.Overhangs 0x1800 0x808 0x1000 ∧
      (⟨0x2000, 3, .protectedMmio⟩ : Region) ∈ (finalState protectHalfPage {}).domain.regions ∧
      (⟨0x2000, 3, .protectedMmio⟩ : Region).Within
        (.covering 0x1800 0x808 .protectedMmio) := by
  have hfitting : ¬Domain.Overhangs 0x1800 0x808 0x1000 := by decide +kernel
  have hmem : (⟨0x2000, 3, .protectedMmio⟩ : Region) ∈
      (finalState protectHalfPage {}).domain.regions := by decide +kernel
  have hwithin := (within_covering_iff (by decide) (by decide) (by decide) (by decide)
    (by decide +kernel) (by decide)).1 _ hmem (by decide)
  exact ⟨hfitting, hmem, hwithin.mpr hfitting⟩

def protectRegister : BenchM Unit := protectRange 0x1800 8 (0x1000 : UInt64).toNat

/-- A range of eight bytes in the middle of a page takes up the rest of the page, although a
region of eight bytes would be enough for it. -/
theorem rest_of_page_protected :
    succeeds protectRegister {} = true ∧
      (⟨0x1800, 11, .protectedMmio⟩ : Region) ∈ (finalState protectRegister {}).domain.regions ∧
      ¬(⟨0x1800, 11, .protectedMmio⟩ : Region).Within (.covering 0x1800 8 .protectedMmio) ∧
      (finalState protectRegister {}).domain.isProtected 0x1808 = true ∧
      (Region.covering 0x1800 8 .protectedMmio).contains 0x1808 = false := by
  have hsingle : (Region.covering 0x1800 8 .protectedMmio).contains 0x1808 = false := by
    decide +kernel
  refine ⟨by decide +kernel, by decide +kernel, ?_, by decide +kernel, hsingle⟩
  intro hwithin
  have hcontains := hwithin 0x1808 (by decide)
  rw [hsingle] at hcontains
  cases hcontains

end Bench
end Interhart
