import Interhart.Text.Blank
import Mathlib.Data.List.TakeWhile

/-!
# The words of a text

A text is cut where a character first stands that ends a piece, and the piece in front of it
does not depend on what is behind.  So the words of a text are told by a single rule: a blank
divides the words in front of it from those behind it.  They are the only words of which the
text consists.
-/

namespace Interhart

/-!
# Cutting at a character
-/

section Cut

variable {goesOn : Char → Bool} {c : Char}

theorem takeWhile_append_stop (h : goesOn c = false) (front rest : List Char) :
    (front ++ c :: rest).takeWhile goesOn = front.takeWhile goesOn := by
  induction front with
  | nil => simp [h]
  | cons d front ih =>
      rw [List.cons_append, List.takeWhile_cons, List.takeWhile_cons, ih]

theorem dropWhile_append_stop (h : goesOn c = false) (front rest : List Char) :
    (front ++ c :: rest).dropWhile goesOn = front.dropWhile goesOn ++ c :: rest := by
  induction front with
  | nil => simp [h]
  | cons d front ih =>
      rw [List.cons_append, List.dropWhile_cons, List.dropWhile_cons, ih]
      split
      · rfl
      · rfl

theorem takeWhile_ne_append {front : List Char} (h : ¬c ∈ front) (rest : List Char) :
    (front ++ c :: rest).takeWhile (· ≠ c) = front := by
  rw [takeWhile_append_stop (by simp), List.takeWhile_eq_self_iff]
  intro d hd
  exact decide_eq_true (ne_of_mem_of_not_mem hd h)

theorem dropWhile_ne_append {front : List Char} (h : ¬c ∈ front) (rest : List Char) :
    (front ++ c :: rest).dropWhile (· ≠ c) = c :: rest := by
  rw [dropWhile_append_stop (by simp), List.dropWhile_eq_nil_iff.mpr, List.nil_append]
  intro d hd
  exact decide_eq_true (ne_of_mem_of_not_mem hd h)

end Cut

/-!
# Words

The first equation is the only one that looks at how words are found; the others follow from
it.
-/

theorem words_append_blank {c : Char} (h : isBlank c = true) (front rest : List Char) :
    words (front ++ c :: rest) = words front ++ words rest := by
  fun_induction words front with
  | case1 => exact words_cons_blank rest h
  | case2 d front hblank ih =>
      rw [List.cons_append, words_cons_blank _ hblank]
      exact ih
  | case3 d front hblank ih =>
      have hstop : (!isBlank c) = false := by simp [h]
      rw [List.cons_append, words_cons_of_not_blank _ hblank, takeWhile_append_stop hstop,
        dropWhile_append_stop hstop, ih, List.cons_append]

theorem words_append_of_blanks {gap : List Char} (h : ∀ c ∈ gap, isBlank c = true)
    (rest : List Char) : words (gap ++ rest) = words rest := by
  induction gap with
  | nil => rfl
  | cons c gap ih =>
      rw [List.cons_append, words_cons_blank _ (h c List.mem_cons_self)]
      exact ih fun d hd => h d (List.mem_cons_of_mem c hd)

theorem words_of_blanks {gap : List Char} (h : ∀ c ∈ gap, isBlank c = true) :
    words gap = [] := by
  rw [← List.append_nil gap, words_append_of_blanks h, words_nil]

theorem words_of_no_blanks {word : List Char} (hne : word ≠ [])
    (h : ∀ c ∈ word, isBlank c = false) : words word = [word] := by
  cases word with
  | nil => exact absurd rfl hne
  | cons c rest =>
      have hfirst : ¬isBlank c = true := by simp [h c List.mem_cons_self]
      have hrest : ∀ d ∈ rest, (!isBlank d) = true := by
        intro d hd
        simp [h d (List.mem_cons_of_mem c hd)]
      rw [words_cons_of_not_blank rest hfirst, List.takeWhile_eq_self_iff.mpr hrest,
        List.dropWhile_eq_nil_iff.mpr hrest, words_nil]

/-!
# Texts that consist of words
-/

/-- A text consists of words if blanks stand between each two of them, in front of the first
and behind the last, where there may be none. -/
inductive ConsistsOf : List Char → List (List Char) → Prop
  | blanks {gap : List Char} : (∀ c ∈ gap, isBlank c = true) → ConsistsOf gap []
  | word {gap word rest : List Char} {others : List (List Char)} :
      (∀ c ∈ gap, isBlank c = true) → word ≠ [] → (∀ c ∈ word, isBlank c = false) →
      (∀ c ∈ rest.head?, isBlank c = true) → ConsistsOf rest others →
      ConsistsOf (gap ++ (word ++ rest)) (word :: others)

namespace ConsistsOf

theorem cons_blank {c : Char} {text : List Char} {pieces : List (List Char)}
    (hc : isBlank c = true) (h : ConsistsOf text pieces) : ConsistsOf (c :: text) pieces := by
  cases h with
  | blanks hgap => exact .blanks (List.forall_mem_cons.mpr ⟨hc, hgap⟩)
  | word hgap hne hword hrest hothers =>
      exact .word (List.forall_mem_cons.mpr ⟨hc, hgap⟩) hne hword hrest hothers

theorem words_eq {text : List Char} {pieces : List (List Char)} (h : ConsistsOf text pieces) :
    words text = pieces := by
  induction h with
  | blanks hgap => exact words_of_blanks hgap
  | @word gap word rest others hgap hne hword hrest hothers ih =>
      rw [words_append_of_blanks hgap]
      cases rest with
      | nil =>
          rw [List.append_nil, words_of_no_blanks hne hword, ← ih, words_nil]
      | cons c rest =>
          have hc : isBlank c = true := hrest c rfl
          rw [words_append_blank hc, words_of_no_blanks hne hword,
            ← words_cons_blank rest hc, ih]
          rfl

end ConsistsOf

theorem consistsOf_words (text : List Char) : ConsistsOf text (words text) := by
  fun_induction words text with
  | case1 => exact .blanks (by simp)
  | case2 c rest hblank ih => exact ih.cons_blank hblank
  | case3 c rest hblank ih =>
      have hsplit : c :: rest =
          [] ++ ((c :: rest.takeWhile (!isBlank ·)) ++ rest.dropWhile (!isBlank ·)) := by
        rw [List.nil_append, List.cons_append, List.takeWhile_append_dropWhile]
      have hword : ∀ d ∈ c :: rest.takeWhile (!isBlank ·), isBlank d = false := by
        refine List.forall_mem_cons.mpr ⟨eq_false_of_ne_true hblank, ?_⟩
        intro d hd
        simpa using List.mem_takeWhile_imp hd
      have hrest : ∀ d ∈ (rest.dropWhile (!isBlank ·)).head?, isBlank d = true := by
        intro d hd
        have hstop := List.head?_dropWhile_not (!isBlank ·) rest
        rw [Option.mem_def.mp hd] at hstop
        simpa using hstop
      rw [hsplit]
      exact .word (by simp) (List.cons_ne_nil _ _) hword hrest ih

theorem words_eq_iff {text : List Char} {pieces : List (List Char)} :
    words text = pieces ↔ ConsistsOf text pieces := by
  constructor
  · rintro rfl
    exact consistsOf_words text
  · exact ConsistsOf.words_eq

end Interhart
