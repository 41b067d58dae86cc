/-!
# Sets of harts

A hart is named by its number, and tables and sets hold the harts below `hartLimit`.
A set is two machine words with a bit for each of them.  Harts at or above the limit
are never members: inserting one leaves the set as it is.
-/

namespace Interhart

/-- Hardware threads, or harts, are numbered from zero; tables and sets hold
those below this bound. -/
def hartLimit : Nat := 128

/-- A set of harts, as the words of its membership bits.  Those of the first 64
harts are in `low`. -/
structure HartSet where
  low : BitVec 64
  high : BitVec 64
deriving DecidableEq

namespace HartSet

/-!
# Bits of harts
-/

def wordOf (hart : Nat) : Nat := hart / 64

def placeOf (hart : Nat) : Nat := hart % 64

def word (s : HartSet) (number : Nat) : BitVec 64 := if number = 0 then s.low else s.high

def setWord (s : HartSet) (number : Nat) (bits : BitVec 64) : HartSet :=
  if number = 0 then { s with low := bits } else { s with high := bits }

def bitPlaces (bits : BitVec 64) : List Nat := (List.range 64).filter bits.getLsbD

/-!
# Operations
-/

def empty : HartSet := ⟨0#64, 0#64⟩

def full : HartSet := ⟨BitVec.allOnes 64, BitVec.allOnes 64⟩

def contains (s : HartSet) (hart : Nat) : Bool :=
  decide (hart < hartLimit) && (s.word (wordOf hart)).getLsbD (placeOf hart)

instance : Membership Nat HartSet := ⟨fun s hart => s.contains hart = true⟩

instance (hart : Nat) (s : HartSet) : Decidable (hart ∈ s) :=
  inferInstanceAs (Decidable (s.contains hart = true))

instance : Inhabited HartSet := ⟨empty⟩

def insert (s : HartSet) (hart : Nat) : HartSet :=
  if hart < hartLimit then
    s.setWord (wordOf hart) (s.word (wordOf hart) ||| BitVec.twoPow 64 (placeOf hart))
  else s

def erase (s : HartSet) (hart : Nat) : HartSet :=
  if hart < hartLimit then
    s.setWord (wordOf hart) (s.word (wordOf hart) &&& ~~~BitVec.twoPow 64 (placeOf hart))
  else s

def inter (s t : HartSet) : HartSet := ⟨s.low &&& t.low, s.high &&& t.high⟩

def union (s t : HartSet) : HartSet := ⟨s.low ||| t.low, s.high ||| t.high⟩

def ofList : List Nat → HartSet
  | [] => empty
  | hart :: rest => (ofList rest).insert hart

def single (hart : Nat) : HartSet := empty.insert hart

def range (first : Nat) (count : Nat) : HartSet :=
  ofList (List.range' first (min count (hartLimit - first)))

/-- The base that asks for every hart, whatever the mask says. -/
def everyHart : UInt64 := 0xffffffffffffffff

/-- Decodes a mask of 64 harts that starts at hart `base`. -/
def ofMask (mask base : UInt64) : HartSet :=
  if base = everyHart then full else ofList ((bitPlaces mask.toBitVec).map (base.toNat + ·))

def toList (s : HartSet) : List Nat :=
  (List.range 2).flatMap fun number => (bitPlaces (s.word number)).map (64 * number + ·)

def size (s : HartSet) : Nat := s.low.cpop.toNat + s.high.cpop.toNat

def isEmpty (s : HartSet) : Bool := s.low == 0#64 && s.high == 0#64

def text (s : HartSet) : String :=
  "\x7b" ++ String.intercalate ", " (s.toList.map toString) ++ "\x7d"

theorem lt_hartLimit_iff {hart : Nat} : hart < hartLimit ↔ wordOf hart < 2 := by
  unfold hartLimit wordOf
  omega

theorem placeOf_lt (hart : Nat) : placeOf hart < 64 := Nat.mod_lt hart (by decide)

theorem eq_iff_wordOf_eq {hart other : Nat} :
    hart = other ↔ wordOf hart = wordOf other ∧ placeOf hart = placeOf other := by
  unfold wordOf placeOf
  omega

theorem word_setWord {number other : Nat} (hnumber : number < 2) (hother : other < 2)
    (s : HartSet) (bits : BitVec 64) :
    (s.setWord number bits).word other = if other = number then bits else s.word other := by
  unfold setWord word
  grind

theorem word_inter (s t : HartSet) (number : Nat) :
    (s.inter t).word number = s.word number &&& t.word number := by
  unfold inter word
  split
  · rfl
  · rfl

theorem word_union (s t : HartSet) (number : Nat) :
    (s.union t).word number = s.word number ||| t.word number := by
  unfold union word
  split
  · rfl
  · rfl

theorem eq_of_words {s t : HartSet} (h : ∀ number < 2, s.word number = t.word number) :
    s = t := by
  cases s with
  | mk low high =>
      cases t with
      | mk low' high' =>
          have hlow : low = low' := h 0 (by decide)
          have hhigh : high = high' := h 1 (by decide)
          rw [hlow, hhigh]

/-!
# Membership equations

One equation for each operation; later proofs use these and the theorems on `toList`,
and do not look at the bits again.
-/

theorem mem_iff_contains {s : HartSet} {hart : Nat} : hart ∈ s ↔ s.contains hart = true :=
  Iff.rfl

theorem mem_iff_bit {s : HartSet} {hart : Nat} :
    hart ∈ s ↔ hart < hartLimit ∧ (s.word (wordOf hart)).getLsbD (placeOf hart) = true := by
  rw [mem_iff_contains, contains, Bool.and_eq_true, decide_eq_true_iff]

theorem lt_of_mem {s : HartSet} {hart : Nat} (h : hart ∈ s) : hart < hartLimit :=
  (mem_iff_bit.mp h).1

theorem mem_iff_place {s : HartSet} {number place : Nat} (hnumber : number < 2)
    (hplace : place < 64) :
    64 * number + place ∈ s ↔ (s.word number).getLsbD place = true := by
  have hword : wordOf (64 * number + place) = number := by
    unfold wordOf
    omega
  have hbit : placeOf (64 * number + place) = place := by
    unfold placeOf
    omega
  rw [mem_iff_bit, lt_hartLimit_iff, hword, hbit]
  exact and_iff_right hnumber

theorem ext_mem {s t : HartSet} (h : ∀ hart, hart ∈ s ↔ hart ∈ t) : s = t := by
  apply eq_of_words
  intro number hnumber
  apply BitVec.eq_of_getLsbD_eq
  intro place hplace
  apply Bool.eq_iff_iff.mpr
  rw [← mem_iff_place hnumber hplace, ← mem_iff_place hnumber hplace]
  exact h _

@[simp] theorem not_mem_empty (hart : Nat) : ¬hart ∈ empty := by
  simp [mem_iff_bit, empty, word]

@[simp] theorem mem_full {hart : Nat} : hart ∈ full ↔ hart < hartLimit := by
  have hword (number : Nat) : full.word number = BitVec.allOnes 64 := by
    unfold word
    split
    · rfl
    · rfl
  rw [mem_iff_bit, hword, BitVec.getLsbD_allOnes, decide_eq_true (placeOf_lt hart)]
  exact and_iff_left rfl

@[simp] theorem mem_insert {s : HartSet} {added hart : Nat} :
    hart ∈ s.insert added ↔ (hart = added ∧ added < hartLimit) ∨ hart ∈ s := by
  unfold insert
  by_cases h : added < hartLimit
  · rw [if_pos h, mem_iff_bit, mem_iff_bit]
    by_cases hlimit : hart < hartLimit
    · rw [word_setWord (lt_hartLimit_iff.mp h) (lt_hartLimit_iff.mp hlimit),
        @eq_iff_wordOf_eq hart added]
      by_cases hword : wordOf hart = wordOf added
      · simp only [hword, if_true, BitVec.getLsbD_or, BitVec.getLsbD_twoPow, placeOf_lt,
          hlimit, h, decide_true, Bool.true_and, Bool.or_eq_true, decide_eq_true_eq, true_and,
          and_true]
        rw [or_comm, @eq_comm Nat (placeOf added)]
      · simp [hword, hlimit]
    · have hne : hart ≠ added := by
        rintro rfl
        exact hlimit h
      simp [hlimit, hne]
  · simp [h]

@[simp] theorem mem_erase {s : HartSet} {gone hart : Nat} :
    hart ∈ s.erase gone ↔ hart ≠ gone ∧ hart ∈ s := by
  unfold erase
  by_cases h : gone < hartLimit
  · rw [if_pos h, mem_iff_bit, mem_iff_bit]
    by_cases hlimit : hart < hartLimit
    · rw [word_setWord (lt_hartLimit_iff.mp h) (lt_hartLimit_iff.mp hlimit), ne_eq,
        @eq_iff_wordOf_eq hart gone]
      by_cases hword : wordOf hart = wordOf gone
      · simp only [hword, if_true, BitVec.getLsbD_and, BitVec.getLsbD_not,
          BitVec.getLsbD_twoPow, placeOf_lt, hlimit, decide_true, Bool.true_and,
          Bool.and_eq_true, Bool.not_eq_true',
          decide_eq_false_iff_not, true_and]
        rw [and_comm, @eq_comm Nat (placeOf gone)]
      · simp [hword, hlimit]
    · simp [hlimit]
  · rw [if_neg h]
    constructor
    · intro hs
      refine ⟨?_, hs⟩
      rintro rfl
      exact h (lt_of_mem hs)
    · exact fun hs => hs.2

@[simp] theorem mem_inter {s t : HartSet} {hart : Nat} :
    hart ∈ s.inter t ↔ hart ∈ s ∧ hart ∈ t := by
  rw [mem_iff_bit, mem_iff_bit, mem_iff_bit, word_inter, BitVec.getLsbD_and, Bool.and_eq_true]
  constructor
  · exact fun h => ⟨⟨h.1, h.2.1⟩, ⟨h.1, h.2.2⟩⟩
  · exact fun h => ⟨h.1.1, h.1.2, h.2.2⟩

@[simp] theorem mem_union {s t : HartSet} {hart : Nat} :
    hart ∈ s.union t ↔ hart ∈ s ∨ hart ∈ t := by
  rw [mem_iff_bit, mem_iff_bit, mem_iff_bit, word_union, BitVec.getLsbD_or, Bool.or_eq_true,
    and_or_left]

@[simp] theorem mem_ofList {harts : List Nat} {hart : Nat} :
    hart ∈ ofList harts ↔ hart ∈ harts ∧ hart < hartLimit := by
  induction harts with
  | nil => simp [ofList]
  | cons first rest ih =>
      simp only [ofList, mem_insert, ih, List.mem_cons]
      constructor
      · rintro (⟨rfl, h⟩ | ⟨h, hl⟩)
        · exact ⟨Or.inl rfl, h⟩
        · exact ⟨Or.inr h, hl⟩
      · rintro ⟨rfl | h, hl⟩
        · exact Or.inl ⟨rfl, hl⟩
        · exact Or.inr ⟨h, hl⟩

@[simp] theorem mem_single {only hart : Nat} :
    hart ∈ single only ↔ hart = only ∧ only < hartLimit := by
  simp [single]

@[simp] theorem mem_range {first count hart : Nat} :
    hart ∈ range first count ↔ first ≤ hart ∧ hart < first + count ∧ hart < hartLimit := by
  simp only [range, mem_ofList, List.mem_range'_1]
  omega

/-!
# Members in order
-/

theorem mem_bitPlaces {bits : BitVec 64} {place : Nat} :
    place ∈ bitPlaces bits ↔ place < 64 ∧ bits.getLsbD place = true := by
  rw [bitPlaces, List.mem_filter, List.mem_range]

theorem pairwise_bitPlaces (bits : BitVec 64) : (bitPlaces bits).Pairwise (· < ·) :=
  List.Pairwise.filter _ List.pairwise_lt_range

@[simp] theorem mem_toList {s : HartSet} {hart : Nat} : hart ∈ s.toList ↔ hart ∈ s := by
  simp only [toList, List.mem_flatMap, List.mem_map, List.mem_range, mem_bitPlaces]
  constructor
  · rintro ⟨number, hnumber, place, ⟨hplace, hbit⟩, rfl⟩
    exact (mem_iff_place hnumber hplace).mpr hbit
  · intro h
    rcases mem_iff_bit.mp h with ⟨hlimit, hbit⟩
    exact ⟨wordOf hart, lt_hartLimit_iff.mp hlimit, placeOf hart, ⟨placeOf_lt hart, hbit⟩,
      Nat.div_add_mod hart 64⟩

theorem pairwise_toList (s : HartSet) : s.toList.Pairwise (· < ·) := by
  rw [toList, List.pairwise_flatMap]
  constructor
  · intro number _
    rw [List.pairwise_map]
    exact (pairwise_bitPlaces _).imp fun h => Nat.add_lt_add_left h _
  · apply List.pairwise_lt_range.imp
    intro number later hlater hart hhart other hother
    rcases List.mem_map.mp hhart with ⟨place, hplace, rfl⟩
    rcases List.mem_map.mp hother with ⟨place', _, rfl⟩
    have hlt := (mem_bitPlaces.mp hplace).1
    omega

theorem isEmpty_iff {s : HartSet} : s.isEmpty = true ↔ ∀ hart, ¬hart ∈ s := by
  constructor
  · intro h hart
    have hs : s = empty := by
      cases s with
      | mk low high => simpa [isEmpty, empty] using h
    simp [hs]
  · intro h
    have hs : s = empty := ext_mem fun hart => by simp [h hart]
    simp [hs, isEmpty, empty]

end HartSet
end Interhart
