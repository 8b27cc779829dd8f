/-!
# White space and words

The characters that separate words are those with the Unicode property White_Space; `words`
cuts a text at them.
-/

namespace DialogueExport.Text

/-- The characters with the property White_Space. -/
def isBlank (c : Char) : Bool :=
  let n := c.toNat
  (0x09 ≤ n && n ≤ 0x0d) || n == 0x20 || n == 0x85 || n == 0xa0 || n == 0x1680 ||
    (0x2000 ≤ n && n ≤ 0x200a) || n == 0x2028 || n == 0x2029 || n == 0x202f ||
    n == 0x205f || n == 0x3000

/-- The longest runs of characters that are not blank, from left to right. -/
def words : List Char → List (List Char)
  | [] => []
  | c :: r =>
    if isBlank c then words r
    else (c :: r.takeWhile fun d => !isBlank d) :: words (r.dropWhile fun d => !isBlank d)
termination_by s => s.length
decreasing_by
  · simp
  · have := (List.dropWhile_sublist (l := r) fun d => !isBlank d).length_le
    simp only [List.length_cons]
    omega

theorem words_cons_of_not_isBlank {c : Char} (h : ¬ isBlank c = true) (r : List Char) :
    words (c :: r) =
      (c :: r.takeWhile fun d => !isBlank d) :: words (r.dropWhile fun d => !isBlank d) := by
  rw [words.eq_def]
  exact if_neg h

theorem not_isBlank_of_mem_takeWhile {r : List Char} {c : Char}
    (h : c ∈ r.takeWhile fun d => !isBlank d) : isBlank c = false := by
  have := List.all_takeWhile (p := fun d => !isBlank d) (l := r)
  rw [List.all_eq_true] at this
  simpa using this c h

end DialogueExport.Text
