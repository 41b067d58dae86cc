import Interhart.Machine.Command
import Interhart.Proofs.Machine.Binding
import Interhart.Proofs.Machine.Protecting
import Mathlib.Data.List.Nodup

/-!
# A domain only grows

Whatever is added to a domain, and however the call ends that adds it, new regions stand behind
those that were there before.  So an address that lies in a region stays in the first one that
contains it.  All regions that calls add are naturally aligned, and none is recorded twice.
-/

namespace Interhart

namespace Region

/-- A block that starts at a multiple of its size.  The largest one is
the whole address space. -/
structure Natural (region : Region) : Prop where
  minOrder_le : minOrder ≤ region.order
  order_le : region.order ≤ addressBits
  dvd_base : blockSize region.order ∣ region.base
  base_eq_zero : region.order = addressBits → region.base = 0

theorem natural_covering (base size : Nat) (flags : RegionFlags) :
    (covering base size flags).Natural := by
  unfold covering
  dsimp only
  split
  · rename_i order hfound
    have horder := List.mem_range'_1.mp (List.mem_of_find?_eq_some hfound)
    constructor
    · exact (Nat.le_max_left _ _).trans horder.1
    · show order ≤ addressBits
      omega
    · exact dvd_blockStart base order
    · intro hwhole
      change order = addressBits at hwhole
      omega
  · constructor
    · show minOrder ≤ addressBits
      decide
    · exact Nat.le_refl _
    · exact Nat.dvd_zero _
    · exact fun _ => rfl

end Region

namespace Domain

/-!
# Tables that hold an address
-/

section Lookup

variable {before after : Domain} (h : before.regions <+: after.regions) {address : Nat}

include h

theorem find?_of_prefix {region : Region} (hfound : before.find? address = some region) :
    after.find? address = some region := by
  rcases h with ⟨regions, hregions⟩
  have hsplit := find?_append regions before address
  rw [hregions, hfound, Option.some_or] at hsplit
  exact hsplit

theorem isProtected_of_prefix
    (hcovered : ∃ region ∈ before.regions, region.contains address = true) :
    after.isProtected address = before.isProtected address := by
  have hsome : (before.find? address).isSome = true := List.find?_isSome.mpr hcovered
  rcases Option.isSome_iff_exists.mp hsome with ⟨region, hfound⟩
  unfold isProtected
  rw [hfound, find?_of_prefix h hfound]

end Lookup

/-!
# Tables that grow
-/

structure Sound (domain : Domain) : Prop where
  bounded : domain.regions.length ≤ capacity
  distinct : domain.regions.Nodup
  natural : ∀ region ∈ domain.regions, region.Natural

theorem sound_empty : Sound {} :=
  ⟨Nat.zero_le _, .nil, fun _ hmem => absurd hmem List.not_mem_nil⟩

structure Appended (before after : Domain) : Prop where
  keeps : before.regions <+: after.regions
  sound : before.Sound → after.Sound

namespace Appended

variable {before middle after : Domain}

theorem refl (domain : Domain) : Appended domain domain := ⟨List.prefix_rfl, id⟩

theorem trans (h : Appended before middle) (h' : Appended middle after) :
    Appended before after :=
  ⟨h.keeps.trans h'.keeps, h'.sound ∘ h.sound⟩

theorem record {region : Region} (hnatural : region.Natural)
    (h : before.record region = .ok after) : Appended before after := by
  rcases record_eq_ok_iff.mp h with ⟨_, rfl⟩ | ⟨hnew, hroom, rfl⟩
  · exact refl after
  · refine ⟨List.prefix_append _ _, fun hsound => ⟨?_, ?_, ?_⟩⟩
    · rw [List.length_append, List.length_singleton]
      exact hroom
    · have hseparate := List.disjoint_singleton.mpr hnew
      exact hsound.distinct.append (List.nodup_singleton region) hseparate
    · intro found hmem
      rcases List.mem_append.mp hmem with hold | hlast
      · exact hsound.natural found hold
      · rw [List.mem_singleton.mp hlast]
        exact hnatural

end Appended
end Domain

/-!
# Calls that add to a domain
-/

namespace Bench

variable {start : Domain}

theorem appending_log (entry : LogRecord) :
    Keeps (fun b => Domain.Appended start b.domain) (log entry) := by
  refine (Passive.logging entry).keeping ?_
  rintro _ _ ⟨_, _, _, _, _, rfl⟩ h
  exact h

theorem appending_recordRegion {region : Region} (hnatural : region.Natural) :
    Keeps (fun b => Domain.Appended start b.domain) (recordRegion region) :=
  keeps_recordRegion appending_log fun _ _ hrecord h => h.trans (.record hnatural hrecord)

theorem appending_protectRange (base size : UInt64) (largest : Nat) :
    Keeps (fun b => Domain.Appended start b.domain) (protectRange base size largest) := by
  apply keeps_protectRange appending_log
  intro region hmem b grown hrecord h
  rcases Domain.exists_covering_of_mem_pieces hmem with ⟨position, length, rfl⟩
  exact h.trans (.record (Region.natural_covering _ _ _) hrecord)

end Bench

/-- A call that adds the region that covers some bytes, or protects a range piece by piece. -/
inductive Addition
  | region (base size : UInt64) (flags : RegionFlags)
  | range (base size largest : UInt64)

namespace Addition

def command : Addition → Command
  | region base size flags => .domain (.record (.covering base.toNat size.toNat flags))
  | range base size largest => .domain (.protect base size largest)

theorem keeps_run (addition : Addition) (start : Domain) :
    Keeps (fun m : Machine => Domain.Appended start m.outside.domain)
      (Machine.run addition.command) := by
  cases addition with
  | region base size flags =>
      have hnatural := Region.natural_covering base.toNat size.toNat flags
      exact Keeps.bind (Contract.onOutside (Bench.appending_recordRegion hnatural))
        fun _ => .value _
  | range base size largest =>
      exact Keeps.bind (Contract.onOutside (Bench.appending_protectRange base size _))
        fun _ => .value _

end Addition

/-- Calls that add to the domain of a machine, however they end.  What goes on between them
leaves the domain alone. -/
inductive Additions (start : Machine) : Machine → Prop
  | begin : Additions start start
  | added {m : Machine} (h : Additions start m) (addition : Addition) :
      Additions start (Machine.step m addition.command).2
  | elsewhere {m after : Machine} (h : Additions start m)
      (hdomain : after.outside.domain = m.outside.domain) : Additions start after

namespace Additions

variable {start m : Machine}

theorem appended (h : Additions start m) :
    Domain.Appended start.outside.domain m.outside.domain := by
  induction h with
  | begin => exact .refl _
  | added h addition ih =>
      rw [Machine.step_snd]
      exact (addition.keeps_run _).finalState ih
  | elsewhere h hdomain ih =>
      rw [hdomain]
      exact ih

/-- The regions of a domain that began empty, and what further calls leave of them. -/
theorem permanent (h : Additions start m) (hempty : start.outside.domain = {}) :
    m.outside.domain.Sound ∧
      ∀ later, Additions m later →
        m.outside.domain.regions <+: later.outside.domain.regions ∧
        ∀ address,
          (∀ region, m.outside.domain.find? address = some region →
            later.outside.domain.find? address = some region) ∧
          ((∃ region ∈ m.outside.domain.regions, region.contains address = true) →
            later.outside.domain.isProtected address =
              m.outside.domain.isProtected address) := by
  constructor
  · apply h.appended.sound
    rw [hempty]
    exact Domain.sound_empty
  · intro later hlater
    have hstands := hlater.appended.keeps
    refine ⟨hstands, fun address => ⟨fun region hfound => ?_, fun hcovered => ?_⟩⟩
    · exact Domain.find?_of_prefix hstands hfound
    · exact Domain.isProtected_of_prefix hstands hcovered

def freshMachine : Machine := { outside := {} }

def topRange : Addition := .range 0xffffffffffffffe8 0x18 0x1000

def toppedMachine : Machine := (Machine.step freshMachine topRange.command).2

def openedMachine : Machine :=
  (Machine.step toppedMachine
    (Addition.region 0 0xffffffffffffffff { readable := true }).command).2

theorem protectRange_topRange :
    Bench.protectRange 0xffffffffffffffe8 0x18 0x1000 = (do
      Bench.recordRegion ⟨0xffffffffffffffe8, 3, .protectedMmio⟩
      Bench.recordRegion ⟨0xfffffffffffffff0, 4, .protectedMmio⟩
      throw (.fault .sumOverflow)) := by
  have hfirst : Domain.pieceSize 0xffffffffffffffe8 lastAddress 12 = 8 := by decide
  have hlast : Domain.pieceSize (0xffffffffffffffe8 + 8) lastAddress 12 = 16 := by decide
  unfold Bench.protectRange Domain.protectWith
  rw [if_pos (by decide)]
  change Domain.recordPieces _ 0xffffffffffffffe8 lastAddress 12 = _
  -- Each piece is a step of a recursion that only its equation opens.
  rw [Domain.recordPieces, if_pos (by decide)]
  dsimp only
  rw [hfirst, if_pos (by decide), Domain.recordPieces, if_pos (by decide)]
  dsimp only
  rw [hlast, if_neg (by decide)]
  rfl

theorem run_topRange :
    Machine.run topRange.command freshMachine = .error (.fault .sumOverflow)
      { outside := { domain := ⟨[⟨0xffffffffffffffe8, 3, .protectedMmio⟩,
          ⟨0xfffffffffffffff0, 4, .protectedMmio⟩]⟩ } } := by
  change (Ipi.onOutside (Bench.protectRange 0xffffffffffffffe8 0x18 0x1000) >>=
    fun _ => pure .done : MachineM Answer) freshMachine = _
  rw [protectRange_topRange]
  rfl

theorem regions_toppedMachine : toppedMachine.outside.domain.regions =
    [⟨0xffffffffffffffe8, 3, .protectedMmio⟩, ⟨0xfffffffffffffff0, 4, .protectedMmio⟩] := by
  unfold toppedMachine
  rw [Machine.step_snd]
  change (finalState (Machine.run topRange.command) freshMachine).outside.domain.regions = _
  unfold finalState
  rw [run_topRange]

theorem permanent_toppedMachine :
    exit? (Machine.run topRange.command) freshMachine = some (.fault .sumOverflow) ∧
      toppedMachine.outside.domain.Sound ∧ toppedMachine.outside.domain.regions.length = 2 ∧
      openedMachine.outside.domain.find? 0xfffffffffffffff8 =
        some ⟨0xfffffffffffffff0, 4, .protectedMmio⟩ ∧
      openedMachine.outside.domain.isProtected 0xfffffffffffffff8 = true := by
  have htopped : Additions freshMachine toppedMachine := Additions.begin.added topRange
  have hopened : Additions toppedMachine openedMachine := Additions.begin.added _
  rcases permanent htopped rfl with ⟨hsound, hlater⟩
  rcases hlater openedMachine hopened with ⟨_, haddress⟩
  rcases haddress 0xfffffffffffffff8 with ⟨hfind, hprotected⟩
  have hfound : toppedMachine.outside.domain.find? 0xfffffffffffffff8 =
      some ⟨0xfffffffffffffff0, 4, .protectedMmio⟩ := by
    unfold Domain.find?
    rw [regions_toppedMachine]
    decide
  have hcovered := List.find?_isSome.mp (Option.isSome_iff_exists.mpr ⟨_, hfound⟩)
  refine ⟨?_, hsound, ?_, hfind _ hfound, ?_⟩
  · unfold exit?
    rw [run_topRange]
  · rw [regions_toppedMachine]
    rfl
  · rw [hprotected hcovered]
    unfold Domain.isProtected
    rw [hfound]
    decide

end Additions
end Interhart
