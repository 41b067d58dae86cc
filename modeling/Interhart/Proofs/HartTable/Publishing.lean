import Interhart.HartTable

/-!
# A table over all its calls

Each call binds a range of harts to an entry.  A call that is accepted acts as one step: all
harts of its range were free and now have its entry, and no other hart changes; a call that is
refused changes nothing.  So a table that has started out empty shows, for each hart, the entry
of the first accepted call whose range holds the hart.
-/

namespace Interhart
namespace HartTable

variable {α : Type}

/-!
# Binding hart by hart

A call as a program of small steps: it checks the range, looks at each of its harts, and writes
the entry of one hart after the other.  What it has written when it ends stays written.
-/

def bindOnce (entry : α) (hart : Nat) (table : HartTable α) : HartTable α :=
  ⟨fun other => if other = hart then some ((table.get? hart).getD entry) else table.get? other⟩

def bindHarts (harts : List Nat) (entry : α) : EStateM Exit (HartTable α) Unit :=
  harts.forM fun hart => modify (bindOnce entry hart)

def bindEach (range : HartRange) (entry : α) : EStateM Exit (HartTable α) Unit := do
  if range.stop ≤ hartLimit then
    let table ← get
    if range.toList.any table.contains then throw (.refused .invalidArgument)
    else bindHarts range.toList entry
  else throw (.refused .invalidArgument)

theorem get?_bindOnce (entry : α) (hart other : Nat) (table : HartTable α) :
    (bindOnce entry hart table).get? other =
      if other = hart then some ((table.get? hart).getD entry) else table.get? other := rfl

theorem ok_of_bindHarts (harts : List Nat) (entry : α) (table : HartTable α) :
    ∃ bound, bindHarts harts entry table = .ok () bound ∧
      ∀ hart, bound.get? hart =
        if hart ∈ harts then some ((table.get? hart).getD entry) else table.get? hart := by
  induction harts generalizing table with
  | nil => exact ⟨table, rfl, fun hart => (if_neg List.not_mem_nil).symm⟩
  | cons first harts ih =>
      rcases ih (bindOnce entry first table) with ⟨bound, hrun, hbound⟩
      refine ⟨bound, hrun, ?_⟩
      intro hart
      rw [hbound, get?_bindOnce]
      by_cases hfirst : hart = first
      · subst hfirst
        simp
      · simp [hfirst]

theorem eq_of_get? {table other : HartTable α} (h : ∀ hart, table.get? hart = other.get? hart) :
    table = other :=
  congrArg HartTable.mk (funext h)

theorem bindHarts_of_vacant {table : HartTable α} {range : HartRange}
    (hvacant : table.isVacant range = true) (entry : α) :
    bindHarts range.toList entry table = .ok () (table.assign range entry) := by
  rcases ok_of_bindHarts range.toList entry table with ⟨bound, hrun, hbound⟩
  have hsame : bound = table.assign range entry := by
    apply eq_of_get?
    intro hart
    rw [hbound, get?_assign]
    by_cases hmem : range.contains hart = true
    · have hfree := (isVacant_iff.mp hvacant).2 hart hmem
      rw [if_pos (HartRange.mem_toList.mpr hmem), if_pos hmem, hfree, Option.getD_none]
    · rw [if_neg (mt HartRange.mem_toList.mp hmem), if_neg hmem]
  rw [hrun, hsame]

theorem any_contains_iff {table : HartTable α} {range : HartRange}
    (hstop : range.stop ≤ hartLimit) :
    range.toList.any table.contains = true ↔ ¬table.isVacant range = true := by
  rw [isVacant_iff]
  simp [hstop, HartRange.mem_toList, contains, Option.isSome_iff_ne_none]

theorem bindEach_of_vacant {table : HartTable α} {range : HartRange}
    (hvacant : table.isVacant range = true) (entry : α) :
    bindEach range entry table = .ok () (table.assign range entry) := by
  have hstop := (isVacant_iff.mp hvacant).1
  have hfree : ¬range.toList.any table.contains = true :=
    fun hany => (any_contains_iff hstop).mp hany hvacant
  unfold bindEach
  rw [if_pos hstop, get_bind, if_neg hfree]
  exact bindHarts_of_vacant hvacant entry

theorem bindEach_of_not_vacant {table : HartTable α} {range : HartRange}
    (hvacant : ¬table.isVacant range = true) (entry : α) :
    bindEach range entry table = .error (.refused .invalidArgument) table := by
  unfold bindEach
  by_cases hstop : range.stop ≤ hartLimit
  · rw [if_pos hstop, get_bind, if_pos ((any_contains_iff hstop).mpr hvacant)]
    rfl
  · rw [if_neg hstop]
    rfl

theorem bindEach_apply (range : HartRange) (entry : α) (table : HartTable α) :
    bindEach range entry table =
      match table.bindRange range entry with
      | .ok bound => .ok () bound
      | .error error => .error (.refused error) table := by
  unfold bindRange
  by_cases hvacant : table.isVacant range = true
  · rw [bindEach_of_vacant hvacant, if_pos hvacant]
  · rw [bindEach_of_not_vacant hvacant, if_neg hvacant]

/-!
# Sequences of calls
-/

structure Publication (α : Type) where
  range : HartRange
  entry : α

namespace Publication

def attempt (call : Publication α) : EStateM Exit (HartTable α) Unit :=
  bindEach call.range call.entry

end Publication

def published (table : HartTable α) (calls : List (Publication α)) : HartTable α :=
  calls.foldl (fun table call => finalState call.attempt table) table

def accepted (table : HartTable α) : List (Publication α) → List (Publication α)
  | [] => []
  | call :: later =>
      if succeeds call.attempt table then call :: (finalState call.attempt table).accepted later
      else (finalState call.attempt table).accepted later

section Calls

variable {table : HartTable α} {call : Publication α}

theorem attempt_of_vacant (h : table.isVacant call.range = true) :
    call.attempt table = .ok () (table.assign call.range call.entry) :=
  bindEach_of_vacant h call.entry

theorem attempt_of_not_vacant (h : ¬table.isVacant call.range = true) :
    call.attempt table = .error (.refused .invalidArgument) table :=
  bindEach_of_not_vacant h call.entry

theorem vacant_of_ok {bound : HartTable α} (hok : call.attempt table = .ok () bound) :
    table.isVacant call.range = true ∧ bound = table.assign call.range call.entry := by
  by_cases h : table.isVacant call.range = true
  · rw [attempt_of_vacant h] at hok
    cases hok
    exact ⟨h, rfl⟩
  · rw [attempt_of_not_vacant h] at hok
    cases hok

theorem unchanged_of_error {exit : Exit} {left : HartTable α}
    (herror : call.attempt table = .error exit left) :
    exit = .refused .invalidArgument ∧ left = table := by
  by_cases h : table.isVacant call.range = true
  · rw [attempt_of_vacant h] at herror
    cases herror
  · rw [attempt_of_not_vacant h] at herror
    cases herror
    exact ⟨rfl, rfl⟩

theorem get?_ne_iff_of_ok {bound : HartTable α} (hok : call.attempt table = .ok () bound)
    (hart : Nat) :
    (bound.get? hart ≠ table.get? hart ↔ call.range.contains hart = true) ∧
      (call.range.contains hart = true → bound.get? hart = some call.entry) := by
  rcases vacant_of_ok hok with ⟨hvacant, rfl⟩
  rw [get?_assign]
  by_cases hmem : call.range.contains hart = true
  · simp [hmem, (isVacant_iff.mp hvacant).2 hart hmem]
  · simp [hmem]

theorem succeeds_attempt_iff :
    succeeds call.attempt table = true ↔ table.isVacant call.range = true := by
  unfold succeeds
  by_cases h : table.isVacant call.range = true
  · simp [attempt_of_vacant h, h]
  · simp [attempt_of_not_vacant h, h]

variable (table call) in
theorem finalState_attempt :
    finalState call.attempt table =
      if table.isVacant call.range then table.assign call.range call.entry else table := by
  unfold finalState
  by_cases h : table.isVacant call.range = true
  · rw [attempt_of_vacant h, if_pos h]
  · rw [attempt_of_not_vacant h, if_neg h]

end Calls

theorem get?_published (table : HartTable α) (calls : List (Publication α)) (hart : Nat) :
    (table.published calls).get? hart =
      (table.get? hart).or
        (((table.accepted calls).find? fun call =>
          call.range.contains hart).map (·.entry)) := by
  induction calls generalizing table with
  | nil => simp [published, accepted]
  | cons call later ih =>
      change ((finalState call.attempt table).published later).get? hart = _
      rw [ih, accepted]
      simp only [succeeds_attempt_iff, finalState_attempt]
      by_cases hvacant : table.isVacant call.range = true
      · rw [if_pos hvacant, if_pos hvacant, get?_assign, List.find?_cons]
        by_cases hmem : call.range.contains hart = true
        · rw [if_pos hmem, hmem, (isVacant_iff.mp hvacant).2 hart hmem]
          rfl
        · rw [if_neg hmem, Bool.eq_false_iff.mpr hmem]
      · rw [if_neg hvacant, if_neg hvacant]

theorem stop_le_of_mem_accepted {table : HartTable α} {calls : List (Publication α)}
    {call : Publication α} (h : call ∈ table.accepted calls) : call.range.stop ≤ hartLimit := by
  induction calls generalizing table with
  | nil => cases h
  | cons first later ih =>
      rw [accepted] at h
      by_cases hfirst : succeeds first.attempt table = true
      · rw [if_pos hfirst] at h
        rcases List.mem_cons.mp h with rfl | hlater
        · exact (isVacant_iff.mp (succeeds_attempt_iff.mp hfirst)).1
        · exact ih hlater
      · rw [if_neg hfirst] at h
        exact ih h

theorem get?_published_of_le (calls : List (Publication α)) {hart : Nat}
    (h : hartLimit ≤ hart) : ((empty : HartTable α).published calls).get? hart = none := by
  rw [get?_published, get?_empty, Option.none_or, Option.map_eq_none_iff, List.find?_eq_none]
  intro call hcall hmem
  have hstop := stop_le_of_mem_accepted hcall
  have hlt := (HartRange.contains_iff.mp hmem).2
  omega

/-- After any calls on an empty table, the next one succeeds exactly if its range is vacant,
that is if the range ends at the limit at the latest and holds no bound hart; the harts that
change are then those of the range, and they have its entry.  A refused call changes nothing.
At any time a hart has the entry of the first successful call whose range holds it, and none at
or above the limit or if there is no such call. -/
theorem publishing_all_or_nothing (calls : List (Publication α)) (call : Publication α) :
    ((∃ bound, call.attempt (empty.published calls) = .ok () bound) ↔
        (empty.published calls).isVacant call.range = true) ∧
      ((empty.published calls).isVacant call.range = true ↔
        call.range.stop ≤ hartLimit ∧ ∀ hart, call.range.contains hart = true →
          (empty.published calls).get? hart = none) ∧
      (∀ bound, call.attempt (empty.published calls) = .ok () bound →
        ∀ hart, (bound.get? hart ≠ (empty.published calls).get? hart ↔
            call.range.contains hart = true) ∧
          (call.range.contains hart = true → bound.get? hart = some call.entry)) ∧
      (∀ exit left, call.attempt (empty.published calls) = .error exit left →
        exit = .refused .invalidArgument ∧
          ∀ hart, left.get? hart = (empty.published calls).get? hart) ∧
      (∀ hart, (empty.published calls).get? hart =
        ((empty.accepted calls).find? fun call => call.range.contains hart).map (·.entry)) ∧
      (∀ hart, hartLimit ≤ hart → (empty.published calls).get? hart = none) ∧
      call.attempt (empty.published calls) =
        match (empty.published calls).bindRange call.range call.entry with
        | .ok bound => .ok () bound
        | .error error => .error (.refused error) (empty.published calls) := by
  refine ⟨?_, isVacant_iff, ?_, ?_, ?_, ?_, bindEach_apply call.range call.entry _⟩
  · constructor
    · rintro ⟨bound, hok⟩
      exact (vacant_of_ok hok).1
    · exact fun hvacant => ⟨_, attempt_of_vacant hvacant⟩
  · exact fun bound hok hart => get?_ne_iff_of_ok hok hart
  · intro exit left herror
    rcases unchanged_of_error herror with ⟨hexit, hleft⟩
    exact ⟨hexit, fun hart => by rw [hleft]⟩
  · intro hart
    rw [get?_published, get?_empty, Option.none_or]
  · exact fun hart hlimit => get?_published_of_le calls hlimit

/-- Of two ranges that overlap the first one is bound, and the rest of the
second one stays free. -/
example : [3, 4].map (published empty [⟨⟨0, 4⟩, 'a'⟩, ⟨⟨2, 4⟩, 'b'⟩]).get? =
    [some 'a', none] := by
  decide

end HartTable
end Interhart
