import Interhart.Proofs.Domain.Pieces

/-!
# Ranges that run into the end of the address space

After each piece of a range the position moves on by its size.  A piece that ends with the
address space moves it to an address that does not exist.  From a position that is a multiple
of the limit of a piece on, no piece ends there, as the range is cut off at the last address.
From any other position on, the pieces are as large as the position is aligned, so what is left
of the address space loses its smallest power of two each time.  The last piece there is the
largest power of two in it, and the question is whether the range has come to an end before.
-/

namespace Interhart
namespace Domain

/-!
# Powers of two in a distance
-/

section Distance

variable {distance order : Nat}

theorem blockSize_log2_le (hpos : 0 < distance) : blockSize distance.log2 ≤ distance := by
  rw [blockSize, Nat.one_shiftLeft]
  exact Nat.log2_self_le (Nat.ne_of_gt hpos)

theorem exists_gcd_eq (distance order : Nat) :
    ∃ k ≤ order, Nat.gcd distance (blockSize order) = blockSize k := by
  have hpower : Nat.gcd distance (blockSize order) ∣ 2 ^ order := by
    rw [← Nat.one_shiftLeft]
    exact Nat.gcd_dvd_right _ _
  rcases (Nat.dvd_prime_pow Nat.prime_two).mp hpower with ⟨k, hk, hsize⟩
  rw [← Nat.one_shiftLeft] at hsize
  exact ⟨k, hk, hsize⟩

theorem log2_blockSize (order : Nat) : (blockSize order).log2 = order := by
  rw [blockSize, Nat.one_shiftLeft, Nat.log2_two_pow]

theorem lt_blockSize_succ_log2 (distance : Nat) : distance < blockSize (distance.log2 + 1) := by
  rw [blockSize, Nat.one_shiftLeft]
  exact Nat.lt_log2_self

theorem log2_eq_of_blockSize (hle : blockSize order ≤ distance)
    (hlt : distance < blockSize (order + 1)) : distance.log2 = order := by
  have hpos := blockSize_pos order
  rw [blockSize, Nat.one_shiftLeft] at hle hlt
  exact (Nat.log2_eq_iff (by omega)).mpr ⟨hle, hlt⟩

theorem lt_of_blockSize_lt {order' : Nat} (h : blockSize order < blockSize order') :
    order < order' := by
  by_contra hle
  exact absurd (Nat.le_of_dvd (blockSize_pos order) (dvd_blockSize (Nat.not_lt.mp hle)))
    (Nat.not_le.mpr h)

theorem blockSize_log2_of_gcd_eq (h : Nat.gcd distance (blockSize order) = distance) :
    blockSize distance.log2 = distance := by
  rcases exists_gcd_eq distance order with ⟨k, _, hk⟩
  rw [h] at hk
  rw [hk, log2_blockSize]

theorem log2_sub_gcd (hpos : 0 < distance) (hlt : distance < blockSize order)
    (hne : Nat.gcd distance (blockSize order) ≠ distance) :
    (distance - Nat.gcd distance (blockSize order)).log2 = distance.log2 := by
  have hle := blockSize_log2_le hpos
  have hnext := lt_blockSize_succ_log2 distance
  have horder : distance.log2 < order := lt_of_blockSize_lt (hle.trans_lt hlt)
  have hdvd : Nat.gcd distance (blockSize order) ∣ distance := Nat.gcd_dvd_left _ _
  have hpower : Nat.gcd distance (blockSize order) ∣ blockSize distance.log2 := by
    rcases exists_gcd_eq distance order with ⟨k, _, hk⟩
    rw [hk] at hdvd ⊢
    have hk' := (Nat.le_of_dvd hpos hdvd).trans_lt hnext
    exact dvd_blockSize (Nat.le_of_lt_succ (lt_of_blockSize_lt hk'))
  have hmore : blockSize distance.log2 ≠ distance := by
    intro hsame
    apply hne
    rw [Nat.gcd_eq_left_iff_dvd, ← hsame]
    exact dvd_blockSize (Nat.le_of_lt horder)
  -- Both are multiples of the smallest power of two, so they differ by as much at least.
  have hsize := Nat.le_of_dvd (by omega) (Nat.dvd_sub hdvd hpower)
  have hgcd := Nat.gcd_pos_of_pos_left (blockSize order) hpos
  exact log2_eq_of_blockSize (by omega) (by omega)

end Distance

/-!
# Pieces up to the end
-/

section Pieces

variable {position stop order : Nat}

theorem add_le_of_dvd {unit address bound : Nat} (hdvd : unit ∣ address) (hbound : unit ∣ bound)
    (hlt : address < bound) : address + unit ≤ bound :=
  Nat.le_of_lt_add_of_dvd (by omega) (Nat.dvd_add_self_right.mpr hdvd) hbound

/-- Whether the pieces from a position on reach the end of the address space: the
next multiple of the limit is not in it any more, and the range has not ended when
the last piece is reached. -/
def ReachesEnd (position stop order : Nat) : Prop :=
  blockSize addressBits < position + blockSize order ∧
    blockSize addressBits < stop + blockSize (blockSize addressBits - position).log2

variable (horder : order ≤ addressBits) (hposition : position < blockSize addressBits)

include horder hposition

theorem gcd_position :
    Nat.gcd position (blockSize order) =
      Nat.gcd (blockSize addressBits - position) (blockSize order) := by
  have hspace := dvd_blockSize horder
  apply Nat.dvd_antisymm
  · apply Nat.dvd_gcd _ (Nat.gcd_dvd_right _ _)
    exact Nat.dvd_sub ((Nat.gcd_dvd_right _ _).trans hspace) (Nat.gcd_dvd_left _ _)
  · apply Nat.dvd_gcd _ (Nat.gcd_dvd_right _ _)
    have hdvd :=
      Nat.dvd_sub ((Nat.gcd_dvd_right (blockSize addressBits - position) _).trans hspace)
      (Nat.gcd_dvd_left (blockSize addressBits - position) (blockSize order))
    rwa [Nat.sub_sub_self (Nat.le_of_lt hposition)] at hdvd

omit hposition in
theorem add_gcd_add_le (hmis : ¬blockSize order ∣ position)
    (hroom : position + blockSize order ≤ blockSize addressBits) :
    position + Nat.gcd position (blockSize order) + blockSize order ≤
      blockSize addressBits := by
  have hpos := blockSize_pos order
  have hfloor : blockSize order * (position / blockSize order) < position := by
    have hle := Nat.mul_div_le position (blockSize order)
    refine Nat.lt_of_le_of_ne hle fun hsame => hmis ?_
    rw [← hsame]
    exact Nat.dvd_mul_right _ _
  have hceil : position < blockSize order * (position / blockSize order) + blockSize order :=
    Nat.lt_mul_div_succ position hpos
  have hnext :
      blockSize order ∣ blockSize order * (position / blockSize order) + blockSize order :=
    Nat.dvd_add_self_right.mpr (Nat.dvd_mul_right _ _)
  have hpiece := add_le_of_dvd (Nat.gcd_dvd_left position (blockSize order))
    ((Nat.gcd_dvd_right position _).trans hnext) hceil
  have hlimit := add_le_of_dvd hnext (dvd_blockSize horder) (by omega)
  omega

theorem not_reachesEnd_of_dvd (hdvd : blockSize order ∣ position) :
    ¬ReachesEnd position stop order := by
  have hroom := add_le_of_dvd hdvd (dvd_blockSize horder) hposition
  exact fun h => Nat.not_lt.mpr hroom h.1

omit horder in
theorem not_reachesEnd_of_le (hend : stop ≤ position) : ¬ReachesEnd position stop order := by
  have hlog := blockSize_log2_le (Nat.sub_pos_of_lt hposition)
  intro h
  have hreach := h.2
  omega

omit hposition in
theorem not_reachesEnd_next (hdvd : blockSize order ∣ position) (hlt : position < stop)
    (hfits : position + pieceSize position stop order < blockSize addressBits) :
    ¬ReachesEnd (position + pieceSize position stop order) stop order := by
  unfold pieceSize at hfits ⊢
  rw [if_pos (Nat.mod_eq_zero_of_dvd hdvd)] at hfits ⊢
  rcases Nat.le_total (stop - position) (blockSize order) with hrest | hmore
  · rw [Nat.min_eq_left hrest] at hfits ⊢
    exact not_reachesEnd_of_le hfits (by omega)
  · rw [Nat.min_eq_right hmore] at hfits ⊢
    exact not_reachesEnd_of_dvd horder hfits (Nat.dvd_add_self_right.mpr hdvd)

theorem reachesEnd_next_iff (hmis : ¬blockSize order ∣ position)
    (hfits : position + pieceSize position stop order < blockSize addressBits) :
    ReachesEnd (position + pieceSize position stop order) stop order ↔
      ReachesEnd position stop order := by
  unfold pieceSize at hfits ⊢
  rw [if_neg fun hmod => hmis (Nat.dvd_of_mod_eq_zero hmod)] at hfits ⊢
  unfold ReachesEnd
  by_cases hroom : position + blockSize order ≤ blockSize addressBits
  · have hnext := add_gcd_add_le horder hmis hroom
    omega
  · rw [gcd_position horder hposition] at hfits ⊢
    have hlog := log2_sub_gcd (Nat.sub_pos_of_lt hposition)
      (show blockSize addressBits - position < blockSize order by omega) (by omega)
    rw [Nat.sub_sub] at hlog
    rw [hlog]
    omega

theorem reachesEnd_of_last (hmis : ¬blockSize order ∣ position) (hlt : position < stop)
    (hends : blockSize addressBits ≤ position + pieceSize position stop order) :
    ReachesEnd position stop order := by
  unfold pieceSize at hends
  rw [if_neg fun hmod => hmis (Nat.dvd_of_mod_eq_zero hmod),
    gcd_position horder hposition] at hends
  have hdistance := Nat.sub_pos_of_lt hposition
  have hgcd : Nat.gcd (blockSize addressBits - position) (blockSize order) =
      blockSize addressBits - position := by
    have hle := Nat.gcd_le_left (blockSize order) hdistance
    omega
  have hlimit : blockSize addressBits - position ≠ blockSize order := by
    intro hsame
    apply hmis
    have hdvd := Nat.dvd_sub (dvd_blockSize horder) (Nat.dvd_refl (blockSize order))
    rwa [← hsame, Nat.sub_sub_self (Nat.le_of_lt hposition), hsame] at hdvd
  have hle := Nat.gcd_le_right (blockSize addressBits - position) (blockSize_pos order)
  rw [hgcd] at hle
  unfold ReachesEnd
  rw [blockSize_log2_of_gcd_eq hgcd]
  omega

theorem overruns_iff (hstop : stop < blockSize addressBits) :
    overruns position stop order = true ↔ ReachesEnd position stop order := by
  fun_induction overruns position stop order with
  | case1 position hlt hfits ih =>
      refine (ih hfits).trans ?_
      by_cases hdvd : blockSize order ∣ position
      · exact iff_of_false (not_reachesEnd_next horder hdvd hlt hfits)
          (not_reachesEnd_of_dvd horder hposition hdvd)
      · exact reachesEnd_next_iff horder hposition hdvd hfits
  | case2 position hlt hends =>
      refine iff_of_true rfl (reachesEnd_of_last horder hposition ?_ hlt (Nat.not_lt.mp hends))
      intro hdvd
      unfold pieceSize at hends
      rw [if_pos (Nat.mod_eq_zero_of_dvd hdvd)] at hends
      omega
  | case3 position hend =>
      exact iff_of_false Bool.false_ne_true
        (not_reachesEnd_of_le hposition (Nat.not_lt.mp hend))

end Pieces

/-!
# Ranges
-/

/-- Whether a range runs into the end of the address space: it starts less than a largest piece
before it, and does not end before the last of the pieces there. -/
def RunsOver (largest : Nat) (range : UInt64 × UInt64) : Prop :=
  2 ^ 64 < range.1.toNat + largest ∧
    2 ^ 64 < range.1.toNat + range.2.toNat + 2 ^ (2 ^ 64 - range.1.toNat).log2

instance (largest : Nat) (range : UInt64 × UInt64) : Decidable (RunsOver largest range) :=
  inferInstanceAs (Decidable (_ ∧ _))

theorem rangeOverruns_iff {largest : Nat} {range : UInt64 × UInt64} (hlimit : IsLimit largest)
    (haligned : 8 ∣ range.1.toNat) :
    rangeOverruns largest range = true ↔ RunsOver largest range := by
  have hword := range.1.toNat_lt
  have hlast : lastAddress = 2 ^ 64 - 1 := rfl
  have hspace : blockSize addressBits = 2 ^ 64 := rfl
  -- What is cut off the range is less than the last piece.
  have hpiece : 2 ^ 1 ≤ 2 ^ (2 ^ 64 - range.1.toNat).log2 :=
    Nat.pow_le_pow_right Nat.two_pos ((Nat.le_log2 (by omega)).mpr (by omega))
  have hpower : blockSize (2 ^ 64 - range.1.toNat).log2 = 2 ^ (2 ^ 64 - range.1.toNat).log2 :=
    Nat.one_shiftLeft _
  unfold rangeOverruns
  rw [overruns_iff (Nat.le_of_lt hlimit.log2_lt) (by omega) (by omega), ReachesEnd,
    hlimit.blockSize_log2, hspace, hpower]
  unfold RunsOver
  omega

theorem not_runsOver_of_dvd {largest : Nat} {range : UInt64 × UInt64} (hlimit : IsLimit largest)
    (hdvd : largest ∣ range.1.toNat) : ¬RunsOver largest range := by
  have hspace : largest ∣ 2 ^ 64 := by
    have hdvd := dvd_blockSize (Nat.le_of_lt hlimit.log2_lt)
    rwa [hlimit.blockSize_log2] at hdvd
  have hroom := add_le_of_dvd hdvd hspace range.1.toNat_lt
  exact fun h => Nat.not_lt.mpr hroom h.1

end Domain
end Interhart
