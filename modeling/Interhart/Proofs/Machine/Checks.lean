import Interhart.Machine.Drivers
import Interhart.Proofs.Machine.Logging

/-!
# What a driver checks

Before a driver takes a device on, it checks the description, whether the harts are vacant, and
whether a device that is to be followed counts at the same frequency.  A check changes nothing,
and what ends it early is a refusal.
-/

namespace Interhart
namespace Bench

/-- A step that succeeds if a condition holds, and is refused if not.  Where all that it names
is there, the refusal is about its arguments. -/
def Checks (b : Bench) (condition named : Prop) (check : BenchM Unit) : Prop :=
  Contract (· = b) check (fun _ s => s = b ∧ condition) fun exit s =>
    s = b ∧ ¬condition ∧ ∃ error, exit = .refused error ∧ (named → error = .invalidArgument)

namespace Checks

variable {b b' : Bench} {condition named : Prop} {check : BenchM Unit}

theorem ok (h : Checks b condition named check) (hrun : check b = .ok () b') :
    b' = b ∧ condition :=
  h.of_ok rfl hrun

theorem keeping {invariant : Bench → Prop} {condition named : Bench → Prop}
    (h : ∀ b, Checks b (condition b) (named b) check) : Keeps invariant check := by
  intro b hb
  refine (h b).weaken (fun _ hs => hs) (fun _ s hs => ?_) (fun _ s hs => ?_) b rfl
  · rw [hs.1]
    exact hb
  · rw [hs.1]
    exact hb

theorem accepted (hcondition : condition) {value : Unit} :
    Checks b condition named (pure value) :=
  Contract.value fun _ hs => ⟨hs, hcondition⟩

theorem refused (hcondition : ¬condition) :
    Checks b condition named (throw (.refused .invalidArgument)) :=
  Contract.exit fun _ hs => ⟨hs, hcondition, _, rfl, fun _ => rfl⟩

end Checks

variable {b : Bench}

theorem checks_validate (valid : Bool) :
    Checks b (valid = true) True
      (orRefuse (if valid then .ok () else .error .invalidArgument)) := by
  cases valid with
  | true => exact .accepted rfl
  | false => exact .refused Bool.false_ne_true

theorem checks_requireVacant (table : HartTable Nat) (harts : HartRange) :
    Checks b (table.isVacant harts = true) True (requireVacant table harts) := by
  unfold requireVacant
  cases table.isVacant harts with
  | true => exact .accepted rfl
  | false => exact .refused Bool.false_ne_true

def SameFrequency (b : Bench) (config : Mtimer.Config) (reference : Option Nat) : Prop :=
  ∀ followed, reference = some followed →
    ∃ device, b.mtimers[followed]? = some device ∧ device.config.frequency = config.frequency

theorem sameFrequency_some_iff {config : Mtimer.Config} {followed : Nat} :
    SameFrequency b config (some followed) ↔
      ∃ device, b.mtimers[followed]? = some device ∧
        device.config.frequency = config.frequency := by
  constructor
  · exact fun hsame => hsame followed rfl
  · intro hsame found hfound
    cases hfound
    exact hsame

theorem checks_requireSameFrequency (config : Mtimer.Config) (reference : Option Nat) :
    Checks b (SameFrequency b config reference)
      (∀ followed, reference = some followed → followed < b.mtimers.length)
      (requireSameFrequency config reference) := by
  cases reference with
  | none => exact .accepted fun _ => nofun
  | some followed =>
      rw [sameFrequency_some_iff]
      cases hdevice : b.mtimers[followed]? with
      | none =>
          refine Contract.bind_error (mtimer_of_none hdevice) ⟨rfl, ?_, _, rfl,
            fun hnamed => ?_⟩
          · intro hsame
            rcases hsame with ⟨device, hfound, _⟩
            cases hfound
          · exact absurd (hnamed followed rfl)
              (Nat.not_lt.mpr (List.getElem?_eq_none_iff.mp hdevice))
      | some device =>
          apply Contract.bind_ok (mtimer_of_some hdevice)
          by_cases hsame : device.config.frequency = config.frequency
          · rw [if_pos hsame]
            exact Checks.accepted ⟨device, rfl, hsame⟩
          · rw [if_neg hsame]
            refine Checks.refused fun hfrequency => ?_
            rcases hfrequency with ⟨found, hfound, hfrequency⟩
            cases hfound
            exact hsame hfrequency

end Bench
end Interhart
