import DialogueExport.Text.Blank

/-!
# Scene directions

A command is free text, but two kinds of it direct who is on stage.  A text that starts with
`Show` and has a third word lets somebody enter: the part of that word behind its last slash
is the name.  A text that starts with `Hide` lets the speaker leave.  Only the first letters
count for this, not the first word, although section 4.1 of the specification speaks of a token.
-/

namespace DialogueExport

/-- What a command does to the speaker (`CommandEffect`). -/
inductive Direction where
  /-- Somebody enters and speaks from now on. -/
  | enter (name : String)
  /-- The speaker leaves. -/
  | leave
  | other
deriving DecidableEq

namespace Direction

/-- The part of a word behind its last slash; the whole word if it has none. -/
def baseName (word : List Char) : List Char :=
  (word.reverse.takeWhile (· ≠ '/')).reverse

/-- What the first letters of a command announce. -/
def announces (keyword : List Char) (text : List Char) : Bool := keyword.isPrefixOf text

/-- What a command does (`command_effect`). -/
def ofText (text : String) : Direction :=
  let s := text.toList
  if announces ['S', 'h', 'o', 'w'] s then
    match (Text.words s)[2]? with
    | some word => enter (String.ofList (baseName word))
    | none => other
  else if announces ['H', 'i', 'd', 'e'] s then leave
  else other

/-- A base name holds no slash. -/
theorem not_mem_baseName (word : List Char) : '/' ∉ baseName word := by
  intro h
  rw [baseName, List.mem_reverse] at h
  have := List.all_takeWhile (p := (· ≠ '/')) (l := word.reverse)
  rw [List.all_eq_true] at this
  exact absurd (this _ h) (by decide)

/-- A word without slash is its own base name. -/
theorem baseName_of_not_mem {word : List Char} (h : '/' ∉ word) : baseName word = word := by
  have ht : (word.reverse ++ []).takeWhile (· ≠ '/') = word.reverse ++ [].takeWhile (· ≠ '/') :=
    List.takeWhile_append_of_pos fun c hc => by
      have : c ≠ '/' := fun e => h (e ▸ List.mem_reverse.1 hc)
      simpa using this
  simp only [List.append_nil, List.takeWhile_nil] at ht
  rw [baseName, ht, List.reverse_reverse]

end Direction

end DialogueExport
