import Interhart.HartSet.Shared
import Mathlib.Data.Finset.Card
import Mathlib.Data.Finset.Image
import Mathlib.Order.Interval.Finset.Nat

/-!
# What sets of harts stand for

A program makes sets of harts step by step, from nothing or from the sets that it has already.
Whatever its steps are, each of its sets stands for the finite set of numbers that the same
steps make of finite sets, and all that can be asked of the set tells of these numbers.  A set
that is shared is updated as any other set is.
-/

namespace Interhart
namespace HartSet

/-!
# Programs
-/

/-- A way to make a set of harts.  The sets that a program has are named by their places. -/
inductive Operation
  | empty
  | full
  | single (hart : Nat)
  | range (first count : Nat)
  | ofMask (mask base : UInt64)
  | insert (place hart : Nat)
  | erase (place hart : Nat)
  | inter (left right : Nat)
  | union (left right : Nat)

/-- A step puts the set that an operation makes at a place, where it replaces the one before.
So to clear a set is to put the empty one at its place. -/
structure Step where
  target : Nat
  operation : Operation

def run {α : Type} (evaluate : (Nat → α) → Operation → α) : List Step → (Nat → α) → Nat → α
  | [], sets => sets
  | step :: rest, sets =>
      run evaluate rest (Function.update sets step.target (evaluate sets step.operation))

def result (sets : Nat → HartSet) : Operation → HartSet
  | .empty => empty
  | .full => full
  | .single hart => single hart
  | .range first count => range first count
  | .ofMask mask base => ofMask mask base
  | .insert place hart => (sets place).insert hart
  | .erase place hart => (sets place).erase hart
  | .inter left right => (sets left).inter (sets right)
  | .union left right => (sets left).union (sets right)

/-!
# Finite sets of numbers
-/

def limited (harts : Finset Nat) : Finset Nat := harts.filter (· < hartLimit)

def named (mask base : UInt64) : Finset Nat :=
  ((Finset.range 64).filter fun place => mask.toNat.testBit place = true).image (base.toNat + ·)

def members (sets : Nat → Finset Nat) : Operation → Finset Nat
  | .empty => ∅
  | .full => Finset.range hartLimit
  | .single hart => limited {hart}
  | .range first count => limited (Finset.Ico first (first + count))
  | .ofMask mask base =>
      if base = everyHart then Finset.range hartLimit else limited (named mask base)
  | .insert place hart => limited ({hart} ∪ sets place)
  | .erase place hart => (sets place).erase hart
  | .inter left right => sets left ∩ sets right
  | .union left right => sets left ∪ sets right

theorem mem_limited {harts : Finset Nat} {hart : Nat} :
    hart ∈ limited harts ↔ hart ∈ harts ∧ hart < hartLimit := Finset.mem_filter

theorem mem_named {mask base : UInt64} {hart : Nat} :
    hart ∈ named mask base ↔
      ∃ place < 64, mask.toNat.testBit place = true ∧ base.toNat + place = hart := by
  simp only [named, Finset.mem_image, Finset.mem_filter, Finset.mem_range, and_assoc]

theorem mem_ofMask {mask base : UInt64} {hart : Nat} :
    hart ∈ ofMask mask base ↔
      (base = everyHart ∨ hart ∈ named mask base) ∧ hart < hartLimit := by
  unfold ofMask
  by_cases h : base = everyHart
  · simp [h]
  · simp only [h, if_false, mem_ofList, List.mem_map, mem_bitPlaces, mem_named, false_or,
      and_assoc]
    rfl

/-!
# Sets and what they stand for
-/

def StandsFor (s : HartSet) (harts : Finset Nat) : Prop := ∀ hart, hart ∈ s ↔ hart ∈ harts

theorem standsFor_result {sets : Nat → HartSet} {harts : Nat → Finset Nat}
    (h : ∀ place, (sets place).StandsFor (harts place)) (operation : Operation) :
    (result sets operation).StandsFor (members harts operation) := by
  intro hart
  cases operation with
  | empty => simp [result, members]
  | full => simp [result, members]
  | single only =>
      simp only [result, members, mem_single, mem_limited, Finset.mem_singleton]
      constructor
      · rintro ⟨rfl, hlimit⟩
        exact ⟨rfl, hlimit⟩
      · rintro ⟨rfl, hlimit⟩
        exact ⟨rfl, hlimit⟩
  | range first count =>
      simp only [result, members, mem_range, mem_limited, Finset.mem_Ico, and_assoc]
  | ofMask mask base =>
      simp only [result, members, mem_ofMask]
      split
      · rename_i hevery
        simp [hevery]
      · rename_i hsome
        simp [hsome, mem_limited]
  | insert place added =>
      simp only [result, members, mem_insert, mem_limited, Finset.mem_union,
        Finset.mem_singleton, h place hart]
      constructor
      · rintro (⟨rfl, hlimit⟩ | hmem)
        · exact ⟨Or.inl rfl, hlimit⟩
        · exact ⟨Or.inr hmem, lt_of_mem ((h place hart).mpr hmem)⟩
      · rintro ⟨rfl | hmem, hlimit⟩
        · exact Or.inl ⟨rfl, hlimit⟩
        · exact Or.inr hmem
  | erase place gone =>
      simp only [result, members, mem_erase, Finset.mem_erase, h place hart]
  | inter left right =>
      simp only [result, members, mem_inter, Finset.mem_inter, h left hart, h right hart]
  | union left right =>
      simp only [result, members, mem_union, Finset.mem_union, h left hart, h right hart]

theorem standsFor_run (steps : List Step) {sets : Nat → HartSet} {harts : Nat → Finset Nat}
    (h : ∀ place, (sets place).StandsFor (harts place)) (place : Nat) :
    (run result steps sets place).StandsFor (run members steps harts place) := by
  induction steps generalizing sets harts with
  | nil => exact h place
  | cons step rest ih =>
      apply ih
      intro other
      by_cases hother : other = step.target
      · rw [hother, Function.update_self, Function.update_self]
        exact standsFor_result h step.operation
      · rw [Function.update_of_ne hother, Function.update_of_ne hother]
        exact h other

/-!
# Counting members
-/

theorem toNat_cpop_eq_length (bits : BitVec 64) :
    bits.cpop.toNat = (bitPlaces bits).length := by
  have hcount (bound : Nat) :
      bits.cpopNatRec bound 0 = ((List.range bound).filter bits.getLsbD).length := by
    induction bound with
    | zero => rfl
    | succ bound ih =>
        rw [BitVec.cpopNatRec_succ, BitVec.cpopNatRec_add, ih, List.range_succ,
          List.filter_append, List.length_append]
        cases hbit : bits.getLsbD bound with
        | false => simp [hbit]
        | true => simp [hbit]
  rw [BitVec.toNat_cpop, hcount]
  rfl

theorem size_eq_length (s : HartSet) : s.size = s.toList.length := by
  rw [size, toNat_cpop_eq_length, toNat_cpop_eq_length, toList, List.length_flatMap]
  simp [List.range_succ, word]

/-!
# Answers
-/

/-- All that can be asked of a set is answered by the numbers that it stands for. -/
structure Answers (s : HartSet) (harts : Finset Nat) : Prop where
  limited : ∀ hart ∈ harts, hart < hartLimit
  contains : ∀ hart, s.contains hart = decide (hart ∈ harts)
  mem_toList : ∀ hart, hart ∈ s.toList ↔ hart ∈ harts
  ascending : s.toList.Pairwise (· < ·)
  size : s.size = s.toList.length
  card : s.size = harts.card
  isEmpty : s.isEmpty = decide (harts = ∅)

namespace StandsFor

variable {s t : HartSet} {harts others : Finset Nat}

theorem answers (h : s.StandsFor harts) : Answers s harts where
  limited := fun hart hmem => lt_of_mem ((h hart).mpr hmem)
  contains := fun hart => Bool.eq_iff_iff.mpr ((h hart).trans decide_eq_true_iff.symm)
  mem_toList := fun hart => HartSet.mem_toList.trans (h hart)
  ascending := pairwise_toList s
  size := size_eq_length s
  card := by
    have hnodup : s.toList.Nodup := (pairwise_toList s).imp Nat.ne_of_lt
    have hharts : s.toList.toFinset = harts := by
      ext hart
      rw [List.mem_toFinset, HartSet.mem_toList]
      exact h hart
    rw [size_eq_length, ← hharts, List.toFinset_card_of_nodup hnodup]
  isEmpty := by
    rw [Bool.eq_iff_iff, isEmpty_iff, decide_eq_true_iff, Finset.eq_empty_iff_forall_notMem]
    exact forall_congr' fun hart => not_congr (h hart)

theorem beq_eq (h : s.StandsFor harts) (ht : t.StandsFor others) :
    (s == t) = decide (harts = others) := by
  rw [Bool.eq_iff_iff, beq_iff_eq, decide_eq_true_iff]
  constructor
  · rintro rfl
    ext hart
    exact (h hart).symm.trans (ht hart)
  · rintro rfl
    exact ext_mem fun hart => (h hart).trans (ht hart).symm

end StandsFor

/-!
# Updates of shared sets
-/

inductive Update
  | insert (hart : Nat)
  | erase (hart : Nat)

def update (s : HartSet) : Update → HartSet
  | .insert hart => s.insert hart
  | .erase hart => s.erase hart

end HartSet

def SharedHartSet.update (shared : SharedHartSet) : HartSet.Update → SharedHartSet
  | .insert hart => shared.insert hart
  | .erase hart => shared.erase hart

theorem SharedHartSet.load_foldl_update (updates : List HartSet.Update)
    (shared : SharedHartSet) :
    (updates.foldl update shared).load = updates.foldl HartSet.update shared.load := by
  induction updates generalizing shared with
  | nil => rfl
  | cons first rest ih =>
      have hfirst : (shared.update first).load = shared.load.update first := by
        cases first with
        | insert hart => exact load_insert shared hart
        | erase hart => exact load_erase shared hart
      rw [List.foldl_cons, List.foldl_cons, ih, hfirst]

namespace HartSet

/-- Whatever steps a program takes, its sets are those of finite sets of numbers below the
limit: they give the same answers and are equal when these are.  A shared set, read after any
updates, is the set that the updates make. -/
theorem answers_of_run (steps : List Step) :
    (∀ place, Answers (run result steps (fun _ => empty) place)
      (run members steps (fun _ => ∅) place)) ∧
    (∀ place other,
      (run result steps (fun _ => empty) place == run result steps (fun _ => empty) other) =
        decide (run members steps (fun _ => ∅) place = run members steps (fun _ => ∅) other)) ∧
    ∀ (start : HartSet) (updates : List Update),
      (updates.foldl SharedHartSet.update (SharedHartSet.ofSet start)).load =
        updates.foldl update start := by
  have hstart : ∀ _ : Nat, empty.StandsFor ∅ := fun _ hart => by simp
  have hrun := standsFor_run steps hstart
  refine ⟨fun place => (hrun place).answers, ?_, ?_⟩
  · exact fun place other => (hrun place).beq_eq (hrun other)
  · intro start updates
    rw [SharedHartSet.load_foldl_update, SharedHartSet.load_ofSet]

end HartSet
end Interhart
