import Interhart.Proofs.Domain.Overrun
import Mathlib.Data.Finset.Card
import Mathlib.Data.Finset.Dedup

/-!
# Room in the table of regions

Ranges are protected one after the other, as long as the table has room.  So a range that runs
into the end of the address space does so only if there is room for what comes before, and for
the piece itself: it is recorded before the position behind it is computed.
-/

namespace Interhart

namespace Domain

/-- Whether a domain has room for those of some regions that are not recorded in it yet. -/
def HasRoom (domain : Domain) (asked : List Region) : Prop :=
  (asked.toFinset \ domain.regions.toFinset).card ≤ capacity - domain.regions.length

instance (domain : Domain) (asked : List Region) : Decidable (domain.HasRoom asked) :=
  inferInstanceAs (Decidable (_ ≤ _))

variable {domain grown : Domain} {region : Region}

theorem hasRoom_nil (domain : Domain) : domain.HasRoom [] := by
  unfold HasRoom
  rw [List.toFinset_nil, Finset.empty_sdiff, Finset.card_empty]
  exact Nat.zero_le _

theorem hasRoom_of_record (h : domain.record region = .ok grown) (more : List Region) :
    grown.HasRoom more ↔ domain.HasRoom (region :: more) := by
  unfold HasRoom
  rw [List.toFinset_cons]
  rcases record_eq_ok_iff.mp h with ⟨hmem, rfl⟩ | ⟨hnew, hroom, rfl⟩
  · rw [Finset.insert_sdiff_of_mem _ (List.mem_toFinset.mpr hmem)]
  · have hrest : insert region more.toFinset \ domain.regions.toFinset =
        insert region (more.toFinset \ (domain.regions ++ [region]).toFinset) := by
      ext found
      by_cases hsame : found = region
      · simp [hsame, hnew]
      · simp [hsame]
    rw [hrest, Finset.card_insert_of_notMem (by simp)]
    dsimp only
    rw [List.length_append, List.length_singleton]
    omega

theorem not_hasRoom_of_record {error : Error} (h : domain.record region = .error error)
    (more : List Region) : ¬domain.HasRoom (region :: more) := by
  have hfull := (full_of_record h).2
  have hnew : region ∉ domain.regions := by
    intro hmem
    rw [record, if_pos hmem] at h
    cases h
  have hpos : 0 < ((region :: more).toFinset \ domain.regions.toFinset).card := by
    apply Finset.card_pos.mpr
    exact ⟨region, by simp [hnew]⟩
  unfold HasRoom
  omega

/-- Protecting some ranges reaches one that runs into the end of the address space. -/
def Breaks (domain : Domain) (largest : Nat) (ranges : List (UInt64 × UInt64)) : Prop :=
  ∃ before range after, ranges = before ++ range :: after ∧ RunsOver largest range ∧
    domain.HasRoom ((before ++ [range]).flatMap (rangeRegions largest))

theorem not_breaks_of_not_runsOver {largest : Nat} {ranges : List (UInt64 × UInt64)}
    (h : ∀ range ∈ ranges, ¬RunsOver largest range) : ¬domain.Breaks largest ranges := by
  rintro ⟨before, range, after, rfl, hover, _⟩
  exact h range (List.mem_append_right _ List.mem_cons_self) hover

section Cons

variable {largest : Nat} {range : UInt64 × UInt64} {ranges : List (UInt64 × UInt64)}

theorem breaks_of_runsOver (hover : RunsOver largest range)
    (hroom : domain.HasRoom (rangeRegions largest range)) :
    domain.Breaks largest (range :: ranges) := by
  refine ⟨[], range, ranges, rfl, hover, ?_⟩
  rwa [List.nil_append, List.flatMap_singleton]

theorem not_breaks_of_not_hasRoom
    (h : ∀ more, ¬domain.HasRoom (rangeRegions largest range ++ more)) :
    ¬domain.Breaks largest (range :: ranges) := by
  rintro ⟨before, last, after, hsplit, _, hroom⟩
  cases before with
  | nil =>
      rw [List.nil_append, List.cons.injEq] at hsplit
      rw [← hsplit.1, List.nil_append, List.flatMap_singleton] at hroom
      exact h [] (by rwa [List.append_nil])
  | cons first before =>
      rw [List.cons_append, List.cons.injEq] at hsplit
      rw [← hsplit.1, List.cons_append, List.flatMap_cons] at hroom
      exact h _ hroom

theorem breaks_cons_iff (hover : ¬RunsOver largest range)
    (hroom : ∀ more, grown.HasRoom more ↔
      domain.HasRoom (rangeRegions largest range ++ more)) :
    domain.Breaks largest (range :: ranges) ↔ grown.Breaks largest ranges := by
  constructor
  · rintro ⟨before, last, after, hsplit, hlast, hfits⟩
    cases before with
    | nil =>
        rw [List.nil_append, List.cons.injEq] at hsplit
        rw [← hsplit.1] at hlast
        exact absurd hlast hover
    | cons first before =>
        rw [List.cons_append, List.cons.injEq] at hsplit
        rw [← hsplit.1, List.cons_append, List.flatMap_cons, ← hroom] at hfits
        exact ⟨before, last, after, hsplit.2, hlast, hfits⟩
  · rintro ⟨before, last, after, hsplit, hlast, hfits⟩
    refine ⟨range :: before, last, after, ?_, hlast, ?_⟩
    · rw [hsplit, List.cons_append]
    · rwa [List.cons_append, List.flatMap_cons, ← hroom]

end Cons

end Domain

end Interhart
