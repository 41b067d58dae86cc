import Interhart.Outcome

/-!
# Operations in step

Two operations run in step if, begun in related states, they end alike, with the same value or
by the same exit, and leave related states.
-/

namespace Interhart

variable {σ α β : Type}

def InStep (related : σ → σ → Prop) (operation operation' : EStateM Exit σ α) : Prop :=
  ∀ s s', related s s' →
    match operation s, operation' s' with
    | .ok value t, .ok value' t' => value = value' ∧ related t t'
    | .error exit t, .error exit' t' => exit = exit' ∧ related t t'
    | _, _ => False

namespace InStep

variable {related : σ → σ → Prop}

theorem of_ok {operation operation' : EStateM Exit σ α}
    (h : InStep related operation operation') {s s' t : σ} {value : α} (hs : related s s')
    (hrun : operation s = .ok value t) :
    ∃ t', operation' s' = .ok value t' ∧ related t t' := by
  have hend := h s s' hs
  rw [hrun] at hend
  cases hrun' : operation' s' with
  | ok value' t' =>
      rw [hrun'] at hend
      rcases hend with ⟨rfl, ht⟩
      exact ⟨t', rfl, ht⟩
  | error exit' t' =>
      rw [hrun'] at hend
      exact hend.elim

theorem of_error {operation operation' : EStateM Exit σ α}
    (h : InStep related operation operation') {s s' t : σ} {exit : Exit} (hs : related s s')
    (hrun : operation s = .error exit t) :
    ∃ t', operation' s' = .error exit t' ∧ related t t' := by
  have hend := h s s' hs
  rw [hrun] at hend
  cases hrun' : operation' s' with
  | ok value' t' =>
      rw [hrun'] at hend
      exact hend.elim
  | error exit' t' =>
      rw [hrun'] at hend
      rcases hend with ⟨rfl, ht⟩
      exact ⟨t', rfl, ht⟩

theorem value (value : α) : InStep related (pure value) (pure value) :=
  fun _ _ h => ⟨rfl, h⟩

theorem exit (exit : Exit) : InStep related (throw exit) (throw exit : EStateM Exit σ α) :=
  fun _ _ h => ⟨rfl, h⟩

theorem modifying {change change' : σ → σ}
    (h : ∀ s s', related s s' → related (change s) (change' s')) :
    InStep related (modify change) (modify change') :=
  fun s s' hs => ⟨rfl, h s s' hs⟩

theorem bind {first first' : EStateM Exit σ α} {rest rest' : α → EStateM Exit σ β}
    (hfirst : InStep related first first')
    (hrest : ∀ value, InStep related (rest value) (rest' value)) :
    InStep related (first >>= rest) (first' >>= rest') := by
  intro s s' hs
  cases hrun : first s with
  | ok value t =>
      rcases hfirst.of_ok hs hrun with ⟨t', hrun', ht⟩
      rw [bind_of_ok hrun, bind_of_ok hrun']
      exact hrest value t t' ht
  | error exit t =>
      rcases hfirst.of_error hs hrun with ⟨t', hrun', ht⟩
      rw [bind_of_error hrun, bind_of_error hrun']
      exact ⟨rfl, ht⟩

theorem looking {rest rest' : σ → EStateM Exit σ α}
    (h : ∀ s s', related s s' → InStep related (rest s) (rest' s')) :
    InStep related (get >>= rest) (get >>= rest') :=
  fun s s' hs => h s s' hs s s' hs

theorem polling {attempt attempt' : EStateM Exit σ (Option α)}
    (h : InStep related attempt attempt') (bound : Nat) :
    InStep related (poll attempt bound) (poll attempt' bound) := by
  induction bound with
  | zero => exact exit _
  | succ bound ih =>
      rw [poll_succ, poll_succ]
      apply h.bind
      intro result
      cases result with
      | none => exact ih
      | some found => exact value found

end InStep
end Interhart
