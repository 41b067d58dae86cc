import Interhart.Proofs.Domain.Growth

/-!
# What a protected range covers

Protecting a range covers all of its addresses with protected regions, up to the last address
there is.  The regions added for it are natural blocks within the limit of a piece, and each of
them starts in the range.

Being covered is not yet being protected.  An address belongs to the first region that contains
it, and the regions of the range stand behind all that were there before, so an address that
was found before is still found in the same region.
-/

namespace Interhart
namespace Domain

/-!
# Domains in which a range is recorded
-/

structure RangeRecorded (before : Domain) (largest : Nat) (range : UInt64 × UInt64)
    (after : Domain) : Prop where
  isPowerOfTwo : isPowerOfTwo largest = true
  grown : Grown before (rangeRegions largest range) after
  recorded : rangeRegions largest range ⊆ after.regions

theorem isProtected_iff_exists {domain : Domain}
    (h : ∀ region ∈ domain.regions, region.flags = .protectedMmio) {address : Nat} :
    domain.isProtected address = true ↔
      ∃ region ∈ domain.regions, region.contains address = true := by
  rw [← List.find?_isSome]
  unfold isProtected find?
  cases hfound : domain.regions.find? (·.contains address) with
  | none => rfl
  | some region =>
      have hplain := h region (List.mem_of_find?_eq_some hfound)
      simp [Region.isProtected, hplain]

theorem Grown.isProtected_iff {before after : Domain} {asked : List Region}
    (h : Grown before asked after) (hasked : ∀ region ∈ asked, region.flags = .protectedMmio)
    {address : Nat} (hcovered : ∃ region ∈ after.regions, region.contains address = true) :
    after.isProtected address = true ↔
      ∀ region, before.find? address = some region → region.isProtected = true := by
  have hsome : (after.find? address).isSome = true := List.find?_isSome.mpr hcovered
  rcases Option.isSome_iff_exists.mp hsome with ⟨found, hfound⟩
  have hprotected : after.isProtected address = found.isProtected := by
    unfold isProtected
    rw [hfound, Option.any_some]
  rw [hprotected]
  cases hold : before.find? address with
  | some region =>
      have hkept := find?_of_prefix h.keeps hold
      rw [hfound] at hkept
      cases hkept
      simp
  | none =>
      have hnew : found ∈ asked := by
        rcases h.origin found (List.mem_of_find?_eq_some hfound) with hbefore | hasked
        · exact absurd (List.find?_some hfound) (List.find?_eq_none.mp hold found hbefore)
        · exact hasked
      refine ⟨fun _ => nofun, fun _ => ?_⟩
      exact decide_eq_true (hasked found hnew)

end Domain

namespace Bench

variable {b after : Bench} {base size largest : UInt64}

theorem contract_protectRange (b : Bench) (base size : UInt64) (largest : Nat) :
    Contract (· = b) (protectRange base size largest)
      (fun _ after => Domain.RangeRecorded b.domain largest (base, size) after.domain)
      (fun _ after =>
        Domain.Grown b.domain (Domain.rangeRegions largest (base, size)) after.domain) := by
  by_cases hpower : Domain.isPowerOfTwo largest = true
  · have hprotect : Contract (Protecting b _ []) (protectRange base size largest) _ _ :=
      protecting_range hpower (List.Subset.refl (Domain.rangeRegions largest (base, size)))
    apply hprotect.weaken
    · intro start hstart
      rw [hstart]
      exact .refl _ _
    · intro _ after hprotecting
      rcases hprotecting.1 with ⟨domain, hgrown, hrecorded, _, _, _, _, _, rfl⟩
      rw [List.append_nil] at hrecorded
      exact ⟨hpower, hgrown, hrecorded⟩
    · intro _ after hrefusing
      rcases hrefusing.1 with ⟨domain, hgrown, _, _, _, _, _, _, rfl⟩
      exact hgrown
  · unfold protectRange Domain.protectWith
    rw [if_neg hpower]
    apply Contract.exit
    intro start hstart
    rw [hstart]
    exact .refl _ _

theorem grown_protectRange (b : Bench) (base size : UInt64) (largest : Nat) :
    Domain.Grown b.domain (Domain.rangeRegions largest (base, size))
      (finalState (protectRange base size largest) b).domain := by
  have hends := (contract_protectRange b base size largest).weaken (fun _ hb => hb)
    (fun _ _ hrecorded => hrecorded.grown) (fun _ _ hgrown => hgrown)
  exact Contract.finalState hends rfl

theorem rangeRecorded_of_ok (hlargest : 8 ≤ largest.toNat)
    (hrun : protectRange base size largest.toNat b = .ok () after) :
    Domain.RangeRecorded b.domain largest.toNat (base, size) after.domain ∧
      Domain.IsLimit largest.toNat := by
  have hrecorded := (contract_protectRange b base size largest.toNat).of_ok rfl hrun
  exact ⟨hrecorded, Domain.isLimit_of_isPowerOfTwo hrecorded.isPowerOfTwo hlargest⟩

/-- Once a range is protected, all of its addresses lie in protected regions.  Each region
added for it is a natural block, no larger than the limit, with an address in the range. -/
theorem covered_within_limit (haligned : 8 ∣ base.toNat) (hlargest : 8 ≤ largest.toNat)
    (hrun : protectRange base size largest.toNat b = .ok () after) :
    (∀ address, Domain.InRange (base, size) address →
      ∃ region ∈ after.domain.regions,
        region.flags = .protectedMmio ∧ region.contains address = true) ∧
    ∀ region ∈ after.domain.regions, region ∉ b.domain.regions →
      region.Natural ∧ blockSize region.order ≤ largest.toNat ∧
        ∃ address, Domain.InRange (base, size) address ∧ region.contains address = true := by
  rcases rangeRecorded_of_ok hlargest hrun with ⟨hrecorded, hlimit⟩
  constructor
  · intro address haddress
    rcases Domain.exists_contains_of_inRange hlimit haligned haddress
      with ⟨region, hmem, hcontains⟩
    exact ⟨region, hrecorded.recorded hmem, Domain.flags_of_mem_pieces hmem, hcontains⟩
  · intro region hmem hnew
    rcases hrecorded.grown.origin region hmem with hold | hasked
    · exact absurd hold hnew
    · rcases Domain.exists_covering_of_mem_pieces hasked with ⟨start, length, rfl⟩
      exact ⟨Region.natural_covering _ _ _,
        Domain.blockSize_le_of_mem_rangeRegions hlimit haligned hasked⟩

def protectLastPages : BenchM Unit :=
  protectRange 0xffffffffffffe008 0x2000 (0x1000 : UInt64).toNat

def lastPage : Region := ⟨0xfffffffffffff000, 12, .protectedMmio⟩

theorem covered_within_limit_lastPages :
    succeeds protectLastPages {} = true ∧
      (∃ region ∈ (finalState protectLastPages {}).domain.regions,
        region.flags = .protectedMmio ∧ region.contains lastAddress = true) ∧
      lastPage ∈ (finalState protectLastPages {}).domain.regions ∧
      lastPage.Natural ∧ blockSize lastPage.order ≤ 0x1000 ∧
      ∃ address, Domain.InRange (0xffffffffffffe008, 0x2000) address ∧
        lastPage.contains address = true := by
  have hsucceeds : succeeds protectLastPages {} = true := by decide +kernel
  have hmem : lastPage ∈ (finalState protectLastPages {}).domain.regions := by decide +kernel
  have hlast : Domain.InRange (0xffffffffffffe008, 0x2000) lastAddress := by decide
  rcases covered_within_limit (by decide) (by decide) (ok_of_succeeds hsucceeds)
    with ⟨hcovered, hwithin⟩
  exact ⟨hsucceeds, hcovered lastAddress hlast, hmem, hwithin lastPage hmem (by decide)⟩

/-!
# Regions that were there before
-/

/-- An address of a protected range is protected, unless it lay before in a
region that is not. -/
theorem isProtected_iff_unshadowed (haligned : 8 ∣ base.toNat) (hlargest : 8 ≤ largest.toNat)
    (hrun : protectRange base size largest.toNat b = .ok () after) {address : Nat}
    (haddress : Domain.InRange (base, size) address) :
    after.domain.isProtected address = true ↔
      ∀ region, b.domain.find? address = some region → region.isProtected = true := by
  rcases rangeRecorded_of_ok hlargest hrun with ⟨hrecorded, hlimit⟩
  rcases Domain.exists_contains_of_inRange hlimit haligned haddress with ⟨region, hmem,
    hcontains⟩
  exact hrecorded.grown.isProtected_iff (fun _ => Domain.flags_of_mem_pieces)
    ⟨region, hrecorded.recorded hmem, hcontains⟩

def shadowedMachine : Machine :=
  (Machine.step Additions.freshMachine
    (Addition.region 0x1000 0x1000 { mmio := true, readable := true }).command).2

def protectTwoPages : BenchM Unit := protectRange 0x1000 0x2000 (0x1000 : UInt64).toNat

theorem isProtected_iff_unshadowed_shadowedMachine :
    succeeds protectTwoPages shadowedMachine.outside = true ∧
      (finalState protectTwoPages shadowedMachine.outside).domain.isProtected
        0x2000 = true := by
  have hsucceeds : succeeds protectTwoPages shadowedMachine.outside = true := by decide +kernel
  have hinside : Domain.InRange (0x1000, 0x2000) 0x2000 := by decide
  have hfree : shadowedMachine.outside.domain.find? 0x2000 = none := by decide +kernel
  refine ⟨hsucceeds, ?_⟩
  refine (isProtected_iff_unshadowed (by decide) (by decide) (ok_of_succeeds hsucceeds)
    hinside).mpr ?_
  intro region hfound
  rw [hfree] at hfound
  cases hfound

/-- The first one is not, although protecting it succeeds. -/
theorem shadowed_page_not_protected :
    Additions Additions.freshMachine shadowedMachine ∧
      succeeds protectTwoPages shadowedMachine.outside = true ∧
      Domain.InRange (0x1000, 0x2000) 0x1000 ∧
      (finalState protectTwoPages shadowedMachine.outside).domain.isProtected 0x1000 = false :=
  ⟨Additions.begin.added _, by decide +kernel, by decide, by decide +kernel⟩

end Bench
end Interhart
