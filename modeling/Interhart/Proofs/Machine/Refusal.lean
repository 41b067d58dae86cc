import Interhart.Proofs.Machine.Binding

/-!
# Refused calls

A call of a driver that is refused binds nothing, and it registers nothing.  If it is refused
because the table of regions is full, the regions that had room stay in it.
-/

namespace Interhart
namespace Binding

open Bench

theorem unchanged_of_refused {binding : Binding} {m after : Machine} {error : Error}
    (hlinked : m.outside.Linked) (hnames : binding.Names m.outside)
    (hroom : m.outside.domain.regions.length ≤ Domain.capacity)
    (h : binding.run m = .error (.refused error) after) :
    after.dispatcher = m.dispatcher ∧ after.outside.mswiDrivers = m.outside.mswiDrivers ∧
      after.outside.mtimerDrivers = m.outside.mtimerDrivers ∧
      after.outside.mswis = m.outside.mswis ∧ after.outside.mtimers = m.outside.mtimers ∧
      after.outside.timer = m.outside.timer ∧
      ((error = .invalidArgument ∧ after.outside.domain = m.outside.domain) ∨
        (error = .tableFull ∧ m.outside.domain.regions <+: after.outside.domain.regions ∧
          after.outside.domain.regions.length = Domain.capacity)) := by
  have hsound : binding.Sound m.outside := ⟨hlinked, hnames⟩
  rcases (contract_run binding m).of_error rfl h with ⟨hwithin, hunbound⟩ | hunlogged
  · cases hunbound with
    | early domain hgrown halike hrefused =>
        rcases halike with ⟨_, _, _, _, _, hafter⟩
        have hdomain : after.outside.domain = domain := by rw [hafter]
        refine ⟨?_, ?_, ?_, ?_, ?_, ?_, ?_⟩
        · rw [hwithin, Ipi.System.dispatcher_within]
        · rw [hafter]
        · rw [hafter]
        · rw [hafter]
        · rw [hafter]
        · rw [hafter]
        · rw [hdomain]
          rcases hrefused hsound error rfl with ⟨hinvalid, hsame⟩ | ⟨hfull, hlength⟩
          · exact .inl ⟨hinvalid, hsame⟩
          · exact .inr ⟨hfull, hgrown.keeps, Nat.le_antisymm (hgrown.bounded hroom) hlength⟩
    | late hunlogged => exact absurd rfl (hunlogged.unrefused hsound error)
  · exact absurd rfl (hunlogged.unrefused hsound error)

def crowdedMachine : Machine :=
  { outside :=
    { mtimers := [{ config := ⟨0x1000, 8, 0x2000, 8, 1000, ⟨0, 1⟩, true, false, []⟩ }]
      domain := ⟨(List.range 63).map fun place => ⟨place * 8, 3, {}⟩⟩ } }

theorem unchanged_of_refused_crowdedMachine :
    ∃ after, (mtimer 0 0 none).run crowdedMachine = .error (.refused .tableFull) after ∧
      after.outside.mtimerDrivers = crowdedMachine.outside.mtimerDrivers ∧
      after.outside.timer = none ∧
      crowdedMachine.outside.domain.regions <+: after.outside.domain.regions ∧
      after.outside.domain.regions.length = Domain.capacity := by
  have hrun := error_of_exit? (by decide +kernel :
    exit? (mtimer 0 0 none).run crowdedMachine = some (.refused .tableFull))
  have hlinked : crowdedMachine.outside.Linked := fun _ _ _ => nofun
  have hnames : (mtimer 0 0 none).Names crowdedMachine.outside := ⟨by decide, fun _ => nofun⟩
  rcases unchanged_of_refused hlinked hnames (by decide) hrun with
    ⟨_, _, hdrivers, _, _, htimer, hinvalid | hfull⟩
  · exact absurd hinvalid.1 (by decide)
  · exact ⟨_, hrun, hdrivers, htimer, hfull.2.1, hfull.2.2⟩

end Binding
end Interhart
