import Interhart.DieWindow
import Mathlib.Data.List.Nodup

/-!
# Segments

The windows of a device divide its harts into segments, each with a copy of the registers of
its own.  The first segment begins with the range of the harts and has the primary copy, and
every window begins another one.  A hart belongs to the segment of the last window that starts
with it or before it, and its place is counted from there.

Only windows in ascending order are valid.  So the one that is found first from the end of the
list is the last one that starts early enough.
-/

namespace Interhart

/-- Neighbouring harts that share a copy of the registers of their device. -/
structure Segment where
  first : Nat
  stop : Nat
  offset : UInt64
deriving DecidableEq

/-- Whether a segment is the one that a hart belongs to.  Harts below every window belong to
the first segment, and harts behind the range to the last one. -/
structure Segment.Holds (harts : HartRange) (windows : List DieWindow) (hart : Nat)
    (segment : Segment) : Prop where
  begins :
    ((∀ window ∈ windows, hart < window.first) ∧
      segment.first = harts.first ∧ segment.offset = 0) ∨
    ∃ window ∈ windows, window.first ≤ hart ∧
      (∀ other ∈ windows, other.first ≤ hart → other.first ≤ window.first) ∧
      segment.first = window.first ∧ segment.offset = window.offset
  ends :
    ((∀ window ∈ windows, window.first ≤ hart) ∧ segment.stop = harts.stop) ∨
    ∃ window ∈ windows, hart < window.first ∧
      (∀ other ∈ windows, hart < other.first → window.first ≤ other.first) ∧
      segment.stop = window.first

namespace DieWindow

variable {windows : List DieWindow} {window : DieWindow} {hart previous stop : Nat}
  {alignment : UInt64}

/-!
# Valid windows
-/

structure Fits (previous stop : Nat) (alignment : UInt64) (window : DieWindow) : Prop where
  previous_lt : previous < window.first
  first_lt : window.first < stop
  offset_ne : window.offset ≠ 0
  offset_mod : window.offset % alignment = 0

theorem fits_of_areValid (h : areValid previous stop alignment windows = true)
    (hmem : window ∈ windows) : window.Fits previous stop alignment := by
  induction windows generalizing previous with
  | nil => cases hmem
  | cons head rest ih =>
      simp only [areValid, Bool.and_eq_true, decide_eq_true_eq] at h
      rcases h with ⟨⟨hfirst, hoffset⟩, hrest⟩
      rcases List.mem_cons.mp hmem with rfl | hmem
      · exact ⟨hfirst.1, hfirst.2, hoffset.1, hoffset.2⟩
      · have hlater := ih hrest hmem
        exact { hlater with previous_lt := Nat.lt_trans hfirst.1 hlater.previous_lt }

def InOrder (windows : List DieWindow) : Prop :=
  windows.Pairwise fun window later => window.first < later.first

theorem inOrder_of_areValid (h : areValid previous stop alignment windows = true) :
    InOrder windows := by
  induction windows generalizing previous with
  | nil => exact .nil
  | cons head rest ih =>
      simp only [areValid, Bool.and_eq_true, decide_eq_true_eq] at h
      exact .cons (fun later hmem => (fits_of_areValid h.2 hmem).previous_lt) (ih h.2)

theorem InOrder.nodup (h : InOrder windows) : windows.Nodup := by
  apply List.Pairwise.imp _ h
  intro window later hlt hsame
  rw [hsame] at hlt
  exact Nat.lt_irrefl _ hlt

theorem InOrder.eq_of_first_eq (h : InOrder windows) {other : DieWindow}
    (hmem : window ∈ windows) (hother : other ∈ windows)
    (hfirst : window.first = other.first) : window = other := by
  induction h with
  | nil => cases hmem
  | cons hhead _ ih =>
      rcases List.mem_cons.mp hmem with rfl | hrest
      · rcases List.mem_cons.mp hother with rfl | hrest
        · rfl
        · have hlt := hhead other hrest
          omega
      · rcases List.mem_cons.mp hother with rfl | hrest'
        · have hlt := hhead window hrest
          omega
        · exact ih hrest hrest'

/-!
# The window that serves a hart
-/

def windowOf? (windows : List DieWindow) (hart : Nat) : Option DieWindow :=
  windows.reverse.find? fun window => decide (window.first ≤ hart)

theorem windowOf?_eq_none_iff :
    windowOf? windows hart = none ↔ ∀ window ∈ windows, hart < window.first := by
  simp [windowOf?]

theorem mem_of_windowOf? (h : windowOf? windows hart = some window) : window ∈ windows :=
  List.mem_reverse.mp (List.mem_of_find?_eq_some h)

theorem InOrder.windowOf?_eq_some_iff (h : InOrder windows) :
    windowOf? windows hart = some window ↔
      window ∈ windows ∧ window.first ≤ hart ∧
        ∀ other ∈ windows, other.first ≤ hart → other.first ≤ window.first := by
  have hgreatest {found : DieWindow} (hfound : windowOf? windows hart = some found) :
      found.first ≤ hart ∧
        ∀ other ∈ windows, other.first ≤ hart → other.first ≤ found.first := by
    rcases List.find?_eq_some_iff_append.mp hfound with ⟨hfirst, late, early, hsplit, hlate⟩
    have hwindows : windows = early.reverse ++ found :: late.reverse := by
      rw [← List.reverse_reverse windows, hsplit]
      simp
    refine ⟨of_decide_eq_true hfirst, fun other hother hle => ?_⟩
    rw [hwindows] at h hother
    rcases List.mem_append.mp hother with hbefore | hbehind
    · have hlt := (List.pairwise_append.mp h).2.2 other hbefore found List.mem_cons_self
      exact Nat.le_of_lt hlt
    · rcases List.mem_cons.mp hbehind with rfl | hbehind
      · exact Nat.le_refl _
      · have hlater := hlate other (List.mem_reverse.mp hbehind)
        simp only [Bool.not_eq_true', decide_eq_false_iff_not] at hlater
        exact absurd hle hlater
  constructor
  · intro hfound
    exact ⟨mem_of_windowOf? hfound, hgreatest hfound⟩
  · intro hlast
    rcases hlast with ⟨hmem, hle, hlast⟩
    cases hfound : windowOf? windows hart with
    | none => exact absurd hle (Nat.not_le.mpr (windowOf?_eq_none_iff.mp hfound window hmem))
    | some found =>
        rcases hgreatest hfound with ⟨hfoundLe, hfoundLast⟩
        have hsame : found.first = window.first :=
          Nat.le_antisymm (hlast found (mem_of_windowOf? hfound) hfoundLe)
            (hfoundLast window hmem hle)
        rw [h.eq_of_first_eq (mem_of_windowOf? hfound) hmem hsame]

def offsetOf (windows : List DieWindow) (hart : Nat) : UInt64 :=
  ((windows.reverse.find? fun window => decide (window.first ≤ hart)).map (·.offset)).getD 0

def startOf (first : Nat) (windows : List DieWindow) (hart : Nat) : Nat :=
  ((windowOf? windows hart).map (·.first)).getD first

theorem offsetOf_eq (windows : List DieWindow) (hart : Nat) :
    offsetOf windows hart = ((windowOf? windows hart).map (·.offset)).getD 0 := rfl

theorem locate_eq (base : UInt64) (first : Nat) (windows : List DieWindow) (hart : Nat) :
    locate base first windows hart =
      (⟨base + offsetOf windows hart⟩, hart - startOf first windows hart) := by
  unfold locate startOf
  rw [offsetOf_eq, windowOf?]
  cases windows.reverse.find? fun window => decide (window.first ≤ hart) with
  | none =>
      simp only [Option.map_none, Option.getD_none, UInt64.add_zero]
  | some window => rfl

theorem offsetOf_mem (windows : List DieWindow) (hart : Nat) :
    offsetOf windows hart ∈ 0 :: windows.map (·.offset) := by
  rw [offsetOf_eq]
  cases hfound : windowOf? windows hart with
  | none => exact List.mem_cons_self
  | some window =>
      exact List.mem_cons_of_mem _ (List.mem_map_of_mem (mem_of_windowOf? hfound))

theorem le_startOf {first : Nat} (h : areValid first stop alignment windows = true)
    (hart : Nat) : first ≤ startOf first windows hart := by
  unfold startOf
  cases hfound : windowOf? windows hart with
  | none => exact Nat.le_refl _
  | some window =>
      exact Nat.le_of_lt (fits_of_areValid h (mem_of_windowOf? hfound)).previous_lt

theorem startOf_le {first : Nat} (windows : List DieWindow) (hart : Nat)
    (hfirst : first ≤ hart) : startOf first windows hart ≤ hart := by
  unfold startOf
  cases hfound : windowOf? windows hart with
  | none => exact hfirst
  | some window =>
      have hle := List.find?_some hfound
      exact of_decide_eq_true hle

/-!
# Copies with the same offset
-/

/-- Two harts have the same place in copies that lie at the same offset, although they belong
to segments of different windows. -/
def Coincide (windows : List DieWindow) (hart other : Nat) : Prop :=
  ∃ window later, windowOf? windows hart = some window ∧ windowOf? windows other = some later ∧
    window ≠ later ∧ window.offset = later.offset ∧ hart - window.first = other - later.first

theorem coincide_of_eq {first : Nat} (h : areValid first stop alignment windows = true)
    {hart other : Nat} (hhart : first ≤ hart) (hother : first ≤ other) (hne : hart ≠ other)
    (hoffset : offsetOf windows hart = offsetOf windows other)
    (hplace : hart - startOf first windows hart = other - startOf first windows other) :
    Coincide windows hart other := by
  have hstart := startOf_le windows hart hhart
  have hstart' := startOf_le windows other hother
  rw [offsetOf_eq, offsetOf_eq] at hoffset
  unfold startOf at hplace hstart hstart'
  cases hfound : windowOf? windows hart with
  | none =>
      cases hfound' : windowOf? windows other with
      | none =>
          rw [hfound, hfound'] at hplace
          simp only [Option.map_none, Option.getD_none] at hplace
          omega
      | some later =>
          rw [hfound, hfound'] at hoffset
          exact absurd hoffset.symm (fits_of_areValid h (mem_of_windowOf? hfound')).offset_ne
  | some window =>
      cases hfound' : windowOf? windows other with
      | none =>
          rw [hfound, hfound'] at hoffset
          exact absurd hoffset (fits_of_areValid h (mem_of_windowOf? hfound)).offset_ne
      | some later =>
          rw [hfound, hfound'] at hoffset hplace
          rw [hfound] at hstart
          rw [hfound'] at hstart'
          refine ⟨window, later, hfound, hfound', ?_, hoffset, hplace⟩
          intro hsame
          simp only [hsame, Option.map_some, Option.getD_some] at hplace hstart hstart'
          omega

theorem Coincide.eq (first : Nat) {hart other : Nat} (h : Coincide windows hart other) :
    offsetOf windows hart = offsetOf windows other ∧
      hart - startOf first windows hart = other - startOf first windows other := by
  rcases h with ⟨window, later, hfound, hfound', _, hoffset, hplace⟩
  unfold startOf
  rw [offsetOf_eq, offsetOf_eq, hfound, hfound']
  exact ⟨hoffset, hplace⟩

theorem Coincide.ne {hart other : Nat} (h : Coincide windows hart other) : hart ≠ other := by
  rcases h with ⟨window, later, hfound, hfound', hwindows, _⟩
  intro hsame
  rw [hsame, hfound'] at hfound
  exact hwindows (Option.some.inj hfound).symm

theorem nodup_offsets_iff {first : Nat} (h : areValid first stop alignment windows = true) :
    (windows.map (·.offset)).Nodup ↔
      ∀ hart other, first ≤ hart ∧ hart < stop → first ≤ other ∧ other < stop →
        ¬Coincide windows hart other := by
  have horder := inOrder_of_areValid h
  rw [List.nodup_map_iff_inj_on horder.nodup]
  constructor
  · intro hdifferent hart other _ _ hcoincide
    rcases hcoincide with ⟨window, later, hwindow, hlater, hne, hoffset, _⟩
    exact hne (hdifferent window (mem_of_windowOf? hwindow) later (mem_of_windowOf? hlater)
      hoffset)
  · intro hapart window hwindow later hlater hoffset
    by_contra hne
    -- The harts with which the two windows start have the first place in them.
    have hfirst {found : DieWindow} (hmem : found ∈ windows) :
        (first ≤ found.first ∧ found.first < stop) ∧
          windowOf? windows found.first = some found := by
      have hfits := fits_of_areValid h hmem
      refine ⟨⟨Nat.le_of_lt hfits.previous_lt, hfits.first_lt⟩, ?_⟩
      exact horder.windowOf?_eq_some_iff.mpr ⟨hmem, Nat.le_refl _, fun _ _ hle => hle⟩
    refine hapart window.first later.first (hfirst hwindow).1 (hfirst hlater).1 ?_
    exact ⟨window, later, (hfirst hwindow).2, (hfirst hlater).2, hne, hoffset, by omega⟩

/-!
# The segment of a hart
-/

def segmentOf (harts : HartRange) (windows : List DieWindow) (hart : Nat) : Segment where
  first := startOf harts.first windows hart
  stop := ((windows.find? fun window => decide (hart < window.first)).map (·.first)).getD
    harts.stop
  offset := offsetOf windows hart

theorem holds_segmentOf {harts : HartRange}
    (h : areValid harts.first harts.stop alignment windows = true) (hart : Nat) :
    (segmentOf harts windows hart).Holds harts windows hart := by
  have horder := inOrder_of_areValid h
  constructor
  · unfold segmentOf startOf
    rw [offsetOf_eq]
    cases hfound : windowOf? windows hart with
    | none => exact .inl ⟨windowOf?_eq_none_iff.mp hfound, rfl, rfl⟩
    | some window =>
        rcases horder.windowOf?_eq_some_iff.mp hfound with ⟨hmem, hle, hlast⟩
        exact .inr ⟨window, hmem, hle, hlast, rfl, rfl⟩
  · unfold segmentOf
    cases hfound : windows.find? fun window => decide (hart < window.first) with
    | none =>
        refine .inl ⟨fun window hmem => ?_, rfl⟩
        have hlate := List.find?_eq_none.mp hfound window hmem
        rw [decide_eq_true_eq] at hlate
        exact Nat.not_lt.mp hlate
    | some window =>
        have hlt := List.find?_some hfound
        rw [decide_eq_true_eq] at hlt
        have hmem := List.mem_of_find?_eq_some hfound
        refine .inr ⟨window, hmem, hlt, fun other hother hlate => ?_, rfl⟩
        rcases List.find?_eq_some_iff_append.mp hfound with ⟨_, early, late, rfl, hearly⟩
        rcases List.mem_append.mp hother with hbefore | hbehind
        · have hle := hearly other hbefore
          simp only [Bool.not_eq_true', decide_eq_false_iff_not] at hle
          exact absurd hlate hle
        · rcases List.mem_cons.mp hbehind with rfl | hbehind
          · exact Nat.le_refl _
          · have hcons := (List.pairwise_append.mp horder).2.1
            exact Nat.le_of_lt (List.rel_of_pairwise_cons hcons hbehind)

theorem mem_segmentOf {harts : HartRange} (windows : List DieWindow)
    (hserved : harts.contains hart = true) :
    (segmentOf harts windows hart).first ≤ hart ∧
      hart < (segmentOf harts windows hart).stop := by
  have hharts := HartRange.contains_iff.mp hserved
  refine ⟨startOf_le windows hart hharts.1, ?_⟩
  unfold segmentOf
  dsimp only
  cases hfound : windows.find? fun window => decide (hart < window.first) with
  | none => exact hharts.2
  | some window =>
      have hlt := List.find?_some hfound
      rw [decide_eq_true_eq] at hlt
      exact hlt

end DieWindow
end Interhart
