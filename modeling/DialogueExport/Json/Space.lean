import DialogueExport.Json.Fault

/-!
# White space between tokens

Space, tab, line feed and carriage return may stand between tokens, and nothing else.
-/

namespace DialogueExport.Json

def isSpace (c : Char) : Bool := c == ' ' || c == '\t' || c == '\n' || c == '\r'

/-- The text from its first character on that is not white space. -/
def skipSpace (s : List Char) : List Char := s.dropWhile isSpace

theorem length_skipSpace_le (s : List Char) : (skipSpace s).length ≤ s.length :=
  (List.dropWhile_sublist isSpace).length_le

@[simp] theorem skipSpace_nil : skipSpace [] = [] := rfl

theorem skipSpace_cons_of_isSpace {c : Char} (h : isSpace c = true) (s : List Char) :
    skipSpace (c :: s) = skipSpace s := by
  simp [skipSpace, h]

theorem skipSpace_cons {c : Char} (h : isSpace c = false) (s : List Char) :
    skipSpace (c :: s) = c :: s := by
  simp [skipSpace, h]

theorem skipSpace_append {u : List Char} (h : ∀ c ∈ u, isSpace c = true) (s : List Char) :
    skipSpace (u ++ s) = skipSpace s := by
  induction u with
  | nil => rfl
  | cons c u ih =>
    rw [List.cons_append, skipSpace_cons_of_isSpace (h c (by simp))]
    exact ih fun d hd => h d (by simp [hd])

/-- A text whose white space is skipped is not shorter than what follows its first
character. -/
theorem length_lt_of_skipSpace {s r : List Char} {c : Char} (h : skipSpace s = c :: r) :
    r.length < s.length := by
  have := length_skipSpace_le s
  rw [h] at this
  exact this

end DialogueExport.Json
