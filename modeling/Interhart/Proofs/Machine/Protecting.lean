import Interhart.Machine.Drivers
import Interhart.Proofs.Domain.Pieces
import Interhart.Proofs.Machine.Logging

/-!
# Protecting ranges on the bench

Protecting ranges records one region after the other.  A table that is full ends it early,
and so may the log.  Regions recorded until then stay, behind those that were there, and
the rest of the bench is as it was, except for what logging changes.
-/

namespace Interhart
namespace Domain

/-- A domain after some of the regions asked for have been recorded in it. -/
structure Grown (before : Domain) (asked : List Region) (after : Domain) : Prop where
  keeps : before.regions <+: after.regions
  origin : ∀ region ∈ after.regions, region ∈ before.regions ∨ region ∈ asked
  bounded : before.regions.length ≤ capacity → after.regions.length ≤ capacity

namespace Grown

variable {before middle after : Domain} {asked : List Region}

theorem refl (domain : Domain) (asked : List Region) : Grown domain asked domain :=
  ⟨List.prefix_rfl, fun _ h => .inl h, id⟩

theorem trans (h : Grown before asked middle) (h' : Grown middle asked after) :
    Grown before asked after := by
  refine ⟨h.keeps.trans h'.keeps, ?_, fun hlength => h'.bounded (h.bounded hlength)⟩
  intro region hmem
  rcases h'.origin region hmem with hearlier | hasked
  · exact h.origin region hearlier
  · exact .inr hasked

theorem record {region : Region} (hasked : region ∈ asked)
    (h : before.record region = .ok after) : Grown before asked after := by
  rcases record_eq_ok_iff.mp h with ⟨_, rfl⟩ | ⟨_, hroom, rfl⟩
  · exact refl _ _
  · refine ⟨List.prefix_append _ _, ?_, ?_⟩
    · intro found hmem
      rcases List.mem_append.mp hmem with hold | hnew
      · exact .inl hold
      · rw [List.mem_singleton.mp hnew]
        exact .inr hasked
    · intro _
      rw [List.length_append, List.length_singleton]
      exact hroom

theorem subset (h : Grown before asked after) : before.regions ⊆ after.regions :=
  h.keeps.subset

end Grown

end Domain

namespace Bench

/-- The bench while regions are recorded, once those of `done` are there. -/
def Protecting (start : Bench) (asked done : List Region) (b : Bench) : Prop :=
  ∃ domain, Domain.Grown start.domain asked domain ∧ done ⊆ domain.regions ∧
    Alike { start with domain := domain } b

/-- Recording regions has broken off.  If it was refused, the table of regions is full. -/
def Refusing (start : Bench) (asked : List Region) (exit : Exit) (b : Bench) : Prop :=
  Protecting start asked [] b ∧
    (Linked start → ∀ error, exit = .refused error →
      error = .tableFull ∧ Domain.capacity ≤ b.domain.regions.length)

variable {start : Bench} {asked done : List Region}

theorem Protecting.refl (b : Bench) (asked : List Region) : Protecting b asked [] b :=
  ⟨b.domain, .refl _ _, List.nil_subset _, .refl b⟩

theorem Protecting.fewer {b : Bench} {done' : List Region} (h : Protecting start asked done b)
    (hfewer : done' ⊆ done) : Protecting start asked done' b := by
  rcases h with ⟨domain, hgrown, hdone, halike⟩
  exact ⟨domain, hgrown, List.Subset.trans hfewer hdone, halike⟩

theorem protecting_log (entry : LogRecord) :
    Contract (Protecting start asked done) (log entry) (fun _ => Protecting start asked done)
      (Refusing start asked) := by
  rintro b ⟨domain, hgrown, hdone, halike⟩
  have hlog := Passive.logging entry { start with domain := domain }
  cases hrun : log entry b with
  | ok value b' => exact ⟨domain, hgrown, hdone, hlog.of_ok halike hrun⟩
  | error exit b' =>
      rcases hlog.of_error halike hrun with ⟨halike', hsound⟩
      refine ⟨⟨domain, hgrown, List.nil_subset _, halike'⟩, ?_⟩
      intro hlinked error hexit
      exact absurd hexit (hsound hlinked error)

theorem protecting_record {region : Region} (hasked : region ∈ asked) :
    Contract (Protecting start asked done) (recordRegion region)
      (fun _ => Protecting start asked (region :: done)) (Refusing start asked) := by
  apply Contract.get_bind
  intro b hb
  have hrefuse : Contract (· = b) (orRefuse (b.domain.record region))
      (fun grown b' => b' = b ∧ b.domain.record region = .ok grown) (Refusing start asked) := by
    refine Contract.orRefuse (fun grown hrecord _ h => ⟨h, hrecord⟩) ?_
    rintro error hrecord _ rfl
    refine ⟨hb.fewer (List.nil_subset _), fun _ found hexit => ?_⟩
    cases hexit
    exact Domain.full_of_record hrecord
  refine Contract.bind hrefuse fun grown => ?_
  have hmodify : Contract (fun b' => b' = b ∧ b.domain.record region = .ok grown)
      (modify fun b => { b with domain := grown })
      (fun _ => Protecting start asked (region :: done)) (Refusing start asked) := by
    apply Contract.modify
    rintro _ ⟨rfl, hrecord⟩
    rcases hb with ⟨domain, hgrown, hdone, _, _, _, _, hentries, rfl⟩
    have hgrow := Domain.Grown.record hasked hrecord
    refine ⟨grown, hgrown.trans hgrow, ?_, _, _, _, _, hentries, rfl⟩
    exact List.cons_subset.mpr
      ⟨Domain.mem_of_record hrecord, List.Subset.trans hdone hgrow.subset⟩
  refine Contract.bind hmodify fun _ => ?_
  change Contract _ (if region ∉ b.domain.regions then _ else pure ()) _ _
  split
  · exact protecting_log _
  · exact Contract.value fun _ h => h

theorem protecting_records {regions : List Region} (hasked : regions ⊆ asked) :
    Contract (Protecting start asked done) (regions.forM recordRegion)
      (fun _ => Protecting start asked (regions ++ done)) (Refusing start asked) := by
  induction regions generalizing done with
  | nil => exact Contract.value fun _ h => h
  | cons region regions ih =>
      rcases List.cons_subset.mp hasked with ⟨hregion, hregions⟩
      refine Contract.bind (protecting_record hregion) fun _ => ?_
      refine (ih hregions).weaken (fun _ h => h) (fun _ b h => h.fewer ?_) fun _ _ h => h
      intro found hfound
      simp only [List.mem_append, List.mem_cons] at hfound ⊢
      tauto

theorem protectRange_eq {largest : Nat} (hlargest : Domain.isPowerOfTwo largest = true)
    (range : UInt64 × UInt64) :
    protectRange range.1 range.2 largest =
      (Domain.rangeRegions largest range).forM recordRegion >>= fun _ =>
        if Domain.rangeOverruns largest range then throw (.fault .sumOverflow)
        else pure () := by
  unfold protectRange Domain.protectWith
  rw [if_pos hlargest]
  exact Domain.recordPieces_eq _ _ _ _

theorem protecting_range {largest : Nat} (hlargest : Domain.isPowerOfTwo largest = true)
    {range : UInt64 × UInt64} (hasked : Domain.rangeRegions largest range ⊆ asked) :
    Contract (Protecting start asked done) (protectRange range.1 range.2 largest)
      (fun _ b => Protecting start asked (Domain.rangeRegions largest range ++ done) b ∧
        Domain.rangeOverruns largest range = false) (Refusing start asked) := by
  rw [protectRange_eq hlargest]
  refine Contract.bind (protecting_records hasked) fun _ => ?_
  cases hoverruns : Domain.rangeOverruns largest range with
  | true => exact Contract.exit fun _ h => ⟨h.fewer (List.nil_subset _), fun _ _ => nofun⟩
  | false => exact Contract.value fun _ h => ⟨h, rfl⟩

theorem protecting_ranges {largest : Nat} (hlargest : Domain.isPowerOfTwo largest = true)
    {ranges : List (UInt64 × UInt64)}
    (hasked : ranges.flatMap (Domain.rangeRegions largest) ⊆ asked) :
    Contract (Protecting start asked done)
      (ranges.forM fun (base, size) => protectRange base size largest)
      (fun _ b =>
        Protecting start asked (ranges.flatMap (Domain.rangeRegions largest) ++ done) b ∧
          ∀ range ∈ ranges, Domain.rangeOverruns largest range = false)
      (Refusing start asked) := by
  induction ranges generalizing done with
  | nil => exact Contract.value fun _ h => ⟨h, by simp⟩
  | cons range ranges ih =>
      rw [List.flatMap_cons, List.append_subset] at hasked
      refine Contract.bind (protecting_range hlargest hasked.1) fun _ => ?_
      intro b hb
      refine (ih hasked.2).weaken (fun _ h => h) (fun _ b h => ?_) (fun _ _ h => h) b hb.1
      refine ⟨h.1.fewer ?_, List.forall_mem_cons.mpr ⟨hb.2, h.2⟩⟩
      intro found hfound
      simp only [List.flatMap_cons, List.mem_append] at hfound ⊢
      tauto

/-!
# What lasts while ranges are protected
-/

section Keeping

variable {invariant : Bench → Prop} (hlog : ∀ entry, Keeps invariant (log entry))

include hlog

theorem keeps_recordRegion {region : Region}
    (hgrow : ∀ b grown, b.domain.record region = .ok grown → invariant b →
      invariant { b with domain := grown }) :
    Keeps invariant (recordRegion region) := by
  apply Contract.get_bind
  intro b hb
  have hrefuse : Contract (· = b) (orRefuse (b.domain.record region))
      (fun grown b' => b' = b ∧ b.domain.record region = .ok grown) fun _ => invariant := by
    refine Contract.orRefuse (fun grown hrecord _ h => ⟨h, hrecord⟩) ?_
    rintro _ _ _ rfl
    exact hb
  refine hrefuse.bind fun grown => ?_
  have hmodify : Contract (fun b' => b' = b ∧ b.domain.record region = .ok grown)
      (modify fun b => { b with domain := grown }) (fun _ => invariant) fun _ => invariant := by
    apply Contract.modify
    rintro _ ⟨rfl, hrecord⟩
    exact hgrow _ grown hrecord hb
  refine hmodify.bind fun _ => ?_
  split
  · exact hlog _
  · exact Contract.value fun _ h => h

theorem keeps_protectRange {base size : UInt64} {largest : Nat}
    (hgrow : ∀ region ∈ Domain.pieces base.toNat (min (base.toNat + size.toNat) lastAddress)
        largest.log2, ∀ b grown, b.domain.record region = .ok grown → invariant b →
      invariant { b with domain := grown }) :
    Keeps invariant (protectRange base size largest) := by
  unfold protectRange Domain.protectWith
  split
  · rw [Domain.recordPieces_eq]
    refine Keeps.bind (.forM fun region hmem => keeps_recordRegion hlog (hgrow region hmem)) ?_
    intro _
    split
    · exact .exit _
    · exact .value ()
  · exact .exit _

end Keeping

end Bench
end Interhart
