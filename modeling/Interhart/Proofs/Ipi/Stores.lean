import Interhart.Proofs.Ipi.Delivery

/-!
# Stores in a history

Which store an effect goes back to, read off the incidents alone.  A history is sound for a
hart if everything it carried out stood in its slot at that moment; two effects of a sound
history never go back to the same store.
-/

namespace Interhart
namespace Ipi

/-- The history up to the latest incident that put something into the slot of a hart, or
emptied it when the hart came up.  Its length tells different stores apart. -/
def latestPut (hart : Nat) (history : List Incident) : List Incident :=
  history.dropWhile fun incident => (incident.puts hart).isNone

def inside (hart : Nat) : List Incident → Nat
  | [] => 0
  | .entered target :: earlier =>
    if target = hart then inside hart earlier + 1 else inside hart earlier
  | .left target :: earlier =>
    if target = hart then inside hart earlier - 1 else inside hart earlier
  | _ :: earlier => inside hart earlier

/-- A hart has begun to process its slot while it was still processing it. -/
def Reentered (hart : Nat) : List Incident → Prop
  | [] => False
  | incident :: earlier =>
      (incident = .entered hart ∧ 0 < inside hart earlier) ∨ Reentered hart earlier

instance decidableReentered (hart : Nat) : (history : List Incident) →
    Decidable (Reentered hart history)
  | [] => isFalse id
  | incident :: earlier =>
      have := decidableReentered hart earlier
      inferInstanceAs (Decidable ((incident = .entered hart ∧ 0 < inside hart earlier) ∨
        Reentered hart earlier))

def Incident.leaves (hart : Nat) : Incident → Option (Option Event)
  | .performed target _ => if target = hart then some none else none
  | incident => incident.puts hart

/-- The event that was stored for a hart and has neither been carried
out nor replaced since. -/
def standing (hart : Nat) : List Incident → Option Event
  | [] => none
  | incident :: earlier => (incident.leaves hart).getD (standing hart earlier)

/-- Whatever a hart carried out was standing at that moment. -/
def Sound (hart : Nat) : List Incident → Prop
  | [] => True
  | incident :: earlier =>
      (∀ event, incident = .performed hart event → standing hart earlier = some event) ∧
        Sound hart earlier

section Histories

variable {hart : Nat} {event : Event} {incident : Incident} {earlier history : List Incident}

theorem latestPut_suffix (hart : Nat) (history : List Incident) :
    latestPut hart history <:+ history :=
  List.dropWhile_suffix _

theorem latestPut_cons_of_some {content : Option Event}
    (h : incident.puts hart = some content) :
    latestPut hart (incident :: earlier) = incident :: earlier := by
  simp [latestPut, h]

theorem latestPut_cons_of_none (h : incident.puts hart = none) :
    latestPut hart (incident :: earlier) = latestPut hart earlier := by
  simp [latestPut, h]

theorem standing_cons_of_leaves {content : Option Event}
    (h : incident.leaves hart = some content) :
    standing hart (incident :: earlier) = content := by
  rw [standing, h, Option.getD_some]

theorem standing_cons_of_none (h : incident.leaves hart = none) :
    standing hart (incident :: earlier) = standing hart earlier := by
  rw [standing, h, Option.getD_none]

theorem leaves_of_puts {content : Option Event} (h : incident.puts hart = some content) :
    incident.leaves hart = some content := by
  cases incident with
  | performed => cases h
  | _ => exact h

theorem leaves_of_not_puts (h : incident.puts hart = none) :
    incident.leaves hart = none ∧ (∀ event, incident ≠ .performed hart event) ∨
      ∃ event, incident = .performed hart event := by
  cases incident with
  | performed target kind =>
      by_cases htarget : target = hart
      · exact Or.inr ⟨kind, by rw [htarget]⟩
      · refine Or.inl ⟨if_neg htarget, ?_⟩
        rintro event ⟨⟩
        exact htarget rfl
  | _ => exact Or.inl ⟨h, nofun⟩

theorem leaves_performed (hart : Nat) (event : Event) :
    (Incident.performed hart event).leaves hart = some none := if_pos rfl

theorem stored_of_puts (h : incident.puts hart = some (some event)) :
    ∃ origin, incident = .stored origin hart event := by
  cases incident with
  | stored origin target kind =>
      simp only [Incident.puts, Option.ite_none_right_eq_some, Option.some.injEq] at h
      rcases h with ⟨rfl, rfl⟩
      exact ⟨origin, rfl⟩
  | reset target => simp [Incident.puts] at h
  | _ => cases h

theorem latestPut_of_standing (h : standing hart history = some event) :
    ∃ origin before, latestPut hart history = .stored origin hart event :: before := by
  induction history with
  | nil => cases h
  | cons incident earlier ih =>
      cases hputs : incident.puts hart with
      | some content =>
          rw [standing_cons_of_leaves (leaves_of_puts hputs)] at h
          subst h
          rcases stored_of_puts hputs with ⟨origin, rfl⟩
          exact ⟨origin, earlier, latestPut_cons_of_some hputs⟩
      | none =>
          rw [latestPut_cons_of_none hputs]
          rcases leaves_of_not_puts hputs with ⟨hleaves, -⟩ | ⟨kind, rfl⟩
          · rw [standing_cons_of_none hleaves] at h
            exact ih h
          · rw [standing_cons_of_leaves (leaves_performed hart kind)] at h
            cases h

theorem standing_of_performed (hperformed : .performed hart event :: earlier <:+ history)
    (hput : latestPut hart history = latestPut hart earlier) :
    standing hart history = none := by
  induction history with
  | nil => exact absurd hperformed (by simp)
  | cons incident rest ih =>
      rcases List.suffix_cons_iff.mp hperformed with hhere | hrest
      · cases hhere
        exact standing_cons_of_leaves (leaves_performed hart event)
      · cases hputs : incident.puts hart with
        | some content =>
            -- A later put would be longer than all of the history before the effect.
            rw [latestPut_cons_of_some hputs] at hput
            have hlong := hrest.length_le
            have hshort := (latestPut_suffix hart earlier).length_le
            rw [← hput] at hshort
            simp only [List.length_cons] at hlong hshort
            omega
        | none =>
            rw [latestPut_cons_of_none hputs] at hput
            rcases leaves_of_not_puts hputs with ⟨hleaves, -⟩ | ⟨kind, rfl⟩
            · rw [standing_cons_of_none hleaves]
              exact ih hrest hput
            · exact standing_cons_of_leaves (leaves_performed hart kind)

namespace Sound

theorem standing_eq (h : Sound hart history)
    (hperformed : .performed hart event :: earlier <:+ history) :
    standing hart earlier = some event := by
  induction history with
  | nil => exact absurd hperformed (by simp)
  | cons incident rest ih =>
      rcases List.suffix_cons_iff.mp hperformed with hhere | hrest
      · cases hhere
        exact h.1 event rfl
      · exact ih h.2 hrest

theorem of_suffix (h : Sound hart history) (hearlier : earlier <:+ history) :
    Sound hart earlier := by
  induction history with
  | nil =>
      rw [List.suffix_nil] at hearlier
      rw [hearlier]
      exact h
  | cons incident rest ih =>
      rcases List.suffix_cons_iff.mp hearlier with rfl | hrest
      · exact h
      · exact ih h.2 hrest

theorem eq_of_latestPut_eq (h : Sound hart history) {event' : Event} {earlier' : List Incident}
    (hfirst : .performed hart event :: earlier <:+ history)
    (hsecond : .performed hart event' :: earlier' <:+ history)
    (hput : latestPut hart earlier = latestPut hart earlier') : earlier = earlier' := by
  have hfull := h.standing_eq hfirst
  have hfull' := h.standing_eq hsecond
  rcases List.suffix_or_suffix_of_suffix hfirst hsecond with hle | hle
  · rcases List.suffix_cons_iff.mp hle with hsame | hlater
    · exact (List.cons.inj hsame).2
    · rw [standing_of_performed hlater hput.symm] at hfull'
      cases hfull'
  · rcases List.suffix_cons_iff.mp hle with hsame | hlater
    · exact (List.cons.inj hsame).2.symm
    · rw [standing_of_performed hlater hput] at hfull
      cases hfull

/-- Each event has been carried out at most as often as it was stored, not counting a store
that still stands. -/
theorem count_le (h : Sound hart history) (event : Event) :
    history.count (.performed hart event) +
        (if standing hart history = some event then 1 else 0) ≤
      history.countP fun incident => incident.puts hart = some (some event) := by
  induction history with
  | nil => simp [standing]
  | cons incident earlier ih =>
      have hrest := ih h.2
      cases hputs : incident.puts hart with
      | some content =>
          have hother : incident ≠ .performed hart event := by
            rintro rfl
            cases hputs
          rw [standing_cons_of_leaves (leaves_of_puts hputs), List.count_cons_of_ne hother,
            List.countP_cons]
          simp only [hputs, Option.some.injEq, decide_eq_true_eq]
          omega
      | none =>
          rw [List.countP_cons_of_neg (by simp [hputs])]
          rcases leaves_of_not_puts hputs with ⟨hleaves, hother⟩ | ⟨kind, rfl⟩
          · rw [standing_cons_of_none hleaves, List.count_cons_of_ne (hother event)]
            exact hrest
          · rw [standing_cons_of_leaves (leaves_performed hart kind), List.count_cons]
            rw [h.1 kind rfl] at hrest
            by_cases hkind : kind = event
            · simpa [hkind] using hrest
            · simpa [hkind] using hrest

end Sound

theorem inside_cons_of_ne (hentered : incident ≠ .entered hart)
    (hleft : incident ≠ .left hart) :
    inside hart (incident :: earlier) = inside hart earlier := by
  cases incident with
  | entered target =>
      have htarget : target ≠ hart := fun h => hentered (by rw [h])
      exact if_neg htarget
  | left target =>
      have htarget : target ≠ hart := fun h => hleft (by rw [h])
      exact if_neg htarget
  | _ => rfl

theorem reentered_cons_iff_of_ne (h : incident ≠ .entered hart) :
    Reentered hart (incident :: earlier) ↔ Reentered hart earlier := by
  simp [Reentered, h]

end Histories

end Ipi
end Interhart
