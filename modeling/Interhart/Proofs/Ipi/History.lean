import Interhart.Proofs.Ipi.Course

/-!
# What histories tell

A course adds incidents to the history and takes none away.  The incidents it has added
tell which harts have become available and unavailable meanwhile, and the controller
stays the one it was.
-/

namespace Interhart
namespace Ipi

variable {κ σ : Type}

/-!
# Available harts
-/

def Incident.adjust : Incident → HartSet → HartSet
  | .madeAvailable hart, available => available.insert hart
  | .madeUnavailable hart, available => available.erase hart
  | _, available => available

def availableAfter (recent : List Incident) (available : HartSet) : HartSet :=
  recent.foldr Incident.adjust available

@[simp] theorem availableAfter_nil (available : HartSet) :
    availableAfter [] available = available := rfl

@[simp] theorem availableAfter_cons (incident : Incident) (recent : List Incident)
    (available : HartSet) :
    availableAfter (incident :: recent) available =
      incident.adjust (availableAfter recent available) := rfl

theorem availableAfter_append (later earlier : List Incident) (available : HartSet) :
    availableAfter (later ++ earlier) available =
      availableAfter later (availableAfter earlier available) :=
  List.foldr_append

/-!
# Later systems
-/

structure Since (recent : List Incident) (s t : System κ σ) : Prop where
  history : t.history = recent ++ s.history
  controller : t.dispatcher.controller = s.dispatcher.controller
  available : t.dispatcher.available = availableAfter recent s.dispatcher.available

def Later (s t : System κ σ) : Prop := ∃ recent, Since recent s t

namespace Later

theorem refl (s : System κ σ) : Later s s := ⟨[], rfl, rfl, rfl⟩

theorem trans {s t u : System κ σ} (hst : Later s t) (htu : Later t u) : Later s u := by
  rcases hst with ⟨earlier, hst⟩
  rcases htu with ⟨later, htu⟩
  refine ⟨later ++ earlier, ?_, ?_, ?_⟩
  · rw [htu.history, hst.history, List.append_assoc]
  · rw [htu.controller, hst.controller]
  · rw [htu.available, hst.available, availableAfter_append]

theorem noting {s t : System κ σ} (h : Later s t) (incident : Incident)
    (hneutral : ∀ available, incident.adjust available = available) :
    Later s (t.noting incident) :=
  h.trans ⟨[incident], rfl, rfl, (hneutral _).symm⟩

theorem within {s t : System κ σ} (h : Later s t) (outside : σ) : Later s (t.within outside) :=
  h.trans ⟨[], rfl, rfl, rfl⟩

theorem storing {s t : System κ σ} (h : Later s t) (origin hart : Nat) (event : Event) :
    Later s (t.storing origin hart event) :=
  h.trans ⟨[.stored origin hart event], rfl, rfl, rfl⟩

theorem resetting {s t : System κ σ} (h : Later s t) (hart : Nat) :
    Later s (t.resetting hart) :=
  h.trans ⟨[.reset hart], rfl, rfl, rfl⟩

theorem admitting {s t : System κ σ} (h : Later s t) (hart : Nat) :
    Later s (t.admitting hart) :=
  h.trans ⟨[.madeAvailable hart], rfl, rfl, rfl⟩

theorem withdrawing {s t : System κ σ} (h : Later s t) (hart : Nat) :
    Later s (t.withdrawing hart) :=
  h.trans ⟨[.madeUnavailable hart], rfl, rfl, rfl⟩

theorem consuming {s t : System κ σ} (h : Later s t) (hart : Nat) (seen : Event) :
    Later s (t.consuming hart seen) :=
  h.trans ⟨[], rfl, t.dispatcher.controller_consumed hart seen,
    t.dispatcher.available_consumed hart seen⟩

end Later

theorem Entered.later_noting {env : Environment κ σ} {hart : Nat} {s t : System κ σ}
    (h : Entered env hart s t) : Later (s.noting (.entered hart)) t := by
  cases h with
  | unregistered => exact .refl _
  | registered => exact ((Later.refl _).within _).noting _ fun _ => rfl

theorem Entered.later {env : Environment κ σ} {hart : Nat} {s t : System κ σ}
    (h : Entered env hart s t) : Later s t :=
  ((Later.refl s).noting _ fun _ => rfl).trans h.later_noting

theorem Course.later {env : Environment κ σ} {task : Task κ} {s t : System κ σ}
    (h : Course env task s t) : Later s t := by
  induction h with
  | done => exact .refl _
  | next _ _ ihfirst ihrest => exact ihfirst.trans ihrest
  | idle entered _ => exact entered.later.noting _ fun _ => rfl
  | handled entered _ _ _ _ ih =>
      refine (Later.trans ?_ ih).consuming _ _ |>.noting _ fun _ => rfl
      exact (entered.later.noting _ fun _ => rfl).within _
  | parked entered _ _ _ ih =>
      refine (Later.trans ?_ ih).noting _ fun _ => rfl
      exact (((entered.later.withdrawing _).consuming _ _).noting _ fun _ => rfl).within _
  | refused => exact (Later.refl _).within _
  | dropped => exact (Later.refl _).within _
  | sent _ _ _ _ ih => exact ih.within _
  | unfit => exact .refl _
  | rejected => exact (Later.refl _).resetting _
  | broughtUp =>
      refine Later.noting ?_ _ fun _ => rfl
      exact ((((Later.refl _).resetting _).within _).noting _ fun _ => rfl).admitting _
  | admitted => exact (Later.refl _).admitting _
  | withdrawn => exact (Later.refl _).withdrawing _
  | posted => exact .refl _
  | post _ _ _ _ ihinner ihrest =>
      refine ((Later.trans ?_ ihinner).within _).trans ihrest
      exact (((Later.refl _).storing _ _ _).within _).noting _ fun _ => rfl

/-!
# Breaks that are not mended

Some questions about a history are of one form: has something been broken, and not been
mended since?
-/

/-- Among incidents, the latest first, one broke something, and none after it mended it.
Whether an incident breaks something may depend on those before it. -/
def Unmended (breaks : Incident → List Incident → Prop) (mends : Incident → Prop)
    (recent : List Incident) : Prop :=
  ∃ later incident earlier, recent = later ++ incident :: earlier ∧
    breaks incident earlier ∧ ∀ i ∈ later, ¬mends i

section Unmended

variable {breaks : Incident → List Incident → Prop} {mends : Incident → Prop}

@[simp] theorem not_unmended_nil : ¬Unmended breaks mends [] := by
  rintro ⟨later, incident, earlier, h, -⟩
  cases later with
  | nil => cases h
  | cons => cases h

theorem unmended_cons_iff {incident : Incident} {recent : List Incident} :
    Unmended breaks mends (incident :: recent) ↔
      breaks incident recent ∨ (¬mends incident ∧ Unmended breaks mends recent) := by
  constructor
  · rintro ⟨later, broken, earlier, h, hbreaks, hlater⟩
    cases later with
    | nil =>
        cases h
        exact Or.inl hbreaks
    | cons first later =>
        cases h
        have hrest := List.forall_mem_cons.mp hlater
        exact Or.inr ⟨hrest.1, later, broken, earlier, rfl, hbreaks, hrest.2⟩
  · rintro (hbreaks | ⟨hmends, later, broken, earlier, rfl, hbreaks, hlater⟩)
    · exact ⟨[], incident, recent, rfl, hbreaks, fun i hi => absurd hi List.not_mem_nil⟩
    · exact ⟨incident :: later, broken, earlier, rfl, hbreaks,
        List.forall_mem_cons.mpr ⟨hmends, hlater⟩⟩

end Unmended

end Ipi
end Interhart
