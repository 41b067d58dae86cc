/-!
# Blanks and words

The characters with the Unicode property `White_Space`, and the words between them.
-/

namespace Interhart

def blankRanges : List (Nat × Nat) :=
  [(0x9, 0xd), (0x20, 0x20), (0x85, 0x85), (0xa0, 0xa0), (0x1680, 0x1680), (0x2000, 0x200a),
    (0x2028, 0x2029), (0x202f, 0x202f), (0x205f, 0x205f), (0x3000, 0x3000)]

def isBlank (c : Char) : Bool :=
  blankRanges.any fun (low, high) => decide (low ≤ c.toNat ∧ c.toNat ≤ high)

/-- The longest pieces of a text that hold no blank, in order. -/
def words : List Char → List (List Char)
  | [] => []
  | c :: rest =>
      if isBlank c then words rest
      else (c :: rest.takeWhile (!isBlank ·)) :: words (rest.dropWhile (!isBlank ·))
termination_by text => text.length
decreasing_by
  · exact Nat.lt_succ_self _
  · exact Nat.lt_succ_of_le (List.dropWhile_sublist _).length_le

@[simp] theorem words_nil : words [] = [] := by
  rw [words]

theorem words_cons_blank {c : Char} (rest : List Char) (h : isBlank c = true) :
    words (c :: rest) = words rest := by
  rw [words, if_pos h]

theorem words_cons_of_not_blank {c : Char} (rest : List Char) (h : ¬isBlank c = true) :
    words (c :: rest) =
      (c :: rest.takeWhile (!isBlank ·)) :: words (rest.dropWhile (!isBlank ·)) := by
  rw [words, if_neg h]

example : (blankRanges.map fun (low, high) => high + 1 - low).sum = 25 := by decide

example : isBlank '\u200f' = false ∧ isBlank '\u3000' = true := by decide

end Interhart
