/-!
# Cutting a text at a character

`split` cuts a text at every occurrence of a character and keeps empty pieces; `join` puts the
pieces together again.  Main statements: `join_split`, and `split_join` for pieces without the
character.
-/

namespace DialogueExport.Text

/-- The pieces of a text between the occurrences of `sep`; there is always one. -/
def split (sep : Char) : List Char → List (List Char)
  | [] => [[]]
  | c :: r =>
    if c = sep then [] :: split sep r
    else
      match split sep r with
      | [] => [[c]]
      | p :: ps => (c :: p) :: ps

/-- The pieces with `sep` between them. -/
def join (sep : Char) : List (List Char) → List Char
  | [] => []
  | [p] => p
  | p :: q :: ps => p ++ sep :: join sep (q :: ps)

theorem split_ne_nil (sep : Char) : ∀ s : List Char, split sep s ≠ []
  | [] => by simp [split]
  | c :: r => by
    unfold split
    split
    · simp
    · split <;> simp

theorem join_cons_of_ne_nil (sep : Char) (p : List Char) {ps : List (List Char)} (h : ps ≠ []) :
    join sep (p :: ps) = p ++ sep :: join sep ps := by
  cases ps with
  | nil => exact absurd rfl h
  | cons q ps => rfl

/-- Joining undoes splitting. -/
theorem join_split (sep : Char) : ∀ s : List Char, join sep (split sep s) = s
  | [] => rfl
  | c :: r => by
    have ih := join_split sep r
    unfold split
    split
    · next h => rw [join_cons_of_ne_nil sep [] (split_ne_nil sep r), ih, h]; rfl
    · split
      · next h => exact absurd h (split_ne_nil sep r)
      · next p ps h =>
        rw [h] at ih
        cases ps with
        | nil => simpa [join] using ih
        | cons q ps => simpa [join] using ih

theorem not_mem_of_mem_split {sep : Char} : ∀ {s p : List Char}, p ∈ split sep s → sep ∉ p
  | [], p, h => by simp only [split, List.mem_singleton] at h; subst h; simp
  | c :: r, p, h => by
    unfold split at h
    split at h
    · rcases List.mem_cons.1 h with rfl | h
      · simp
      · exact not_mem_of_mem_split h
    · next hc =>
      split at h
      · next hr => exact absurd hr (split_ne_nil sep r)
      · next q qs hr =>
        have hq : sep ∉ q := not_mem_of_mem_split (s := r) (by rw [hr]; simp)
        rcases List.mem_cons.1 h with rfl | h
        · simp only [List.mem_cons, not_or]
          exact ⟨fun e => hc e.symm, hq⟩
        · exact not_mem_of_mem_split (s := r) (by rw [hr]; simp [h])

theorem split_of_not_mem {sep : Char} : ∀ {p : List Char}, sep ∉ p → split sep p = [p]
  | [], _ => rfl
  | c :: r, h => by
    have hc : c ≠ sep := fun e => h (by simp [e])
    have hr : sep ∉ r := fun e => h (by simp [e])
    simp [split, hc, split_of_not_mem hr]

/-- A separator cuts a text in two, whatever stands on its sides. -/
theorem split_append_cons (sep : Char) : ∀ s r : List Char,
    split sep (s ++ sep :: r) = split sep s ++ split sep r
  | [], r => by simp [split]
  | c :: s, r => by
    have ih := split_append_cons sep s r
    by_cases hc : c = sep
    · simp [split, hc, ih]
    · rw [List.cons_append, split, split, if_neg hc, if_neg hc, ih]
      cases hs : split sep s with
      | nil => exact absurd hs (split_ne_nil sep s)
      | cons p ps => rfl

/-- A piece ends at the first separator. -/
theorem split_append {sep : Char} {p : List Char} (h : sep ∉ p) (r : List Char) :
    split sep (p ++ sep :: r) = p :: split sep r := by
  rw [split_append_cons, split_of_not_mem h, List.singleton_append]

/-- A text that holds a separator can be cut at the last one. -/
theorem exists_eq_append_cons_of_mem {sep : Char} {s : List Char} (h : sep ∈ s) :
    ∃ before after, s = before ++ sep :: after ∧ sep ∉ after := by
  obtain ⟨after, before, hs, hafter⟩ := List.eq_append_cons_of_mem (List.mem_reverse.2 h)
  refine ⟨before.reverse, after.reverse, ?_, fun hm => hafter (List.mem_reverse.1 hm)⟩
  rw [← List.reverse_reverse s, hs]
  simp

/-- Read from behind, a text up to a separator is what stands behind the last one. -/
theorem takeWhile_reverse_append {sep : Char} (s : List Char) {r : List Char} (h : sep ∉ r) :
    (s ++ sep :: r).reverse.takeWhile (· ≠ sep) = r.reverse := by
  have hrev : (s ++ sep :: r).reverse = r.reverse ++ sep :: s.reverse := by simp
  rw [hrev, List.takeWhile_append_of_pos, List.takeWhile_cons_of_neg (by simp), List.append_nil]
  intro c hc
  have hne : c ≠ sep := fun e => h (e ▸ List.mem_reverse.1 hc)
  simpa using hne

theorem join_append (sep : Char) : ∀ {ps qs : List (List Char)}, ps ≠ [] → qs ≠ [] →
    join sep (ps ++ qs) = join sep ps ++ sep :: join sep qs
  | [], _, h, _ => absurd rfl h
  | [p], _, _, hq => join_cons_of_ne_nil sep p hq
  | p :: q :: ps, qs, _, hq => by
    have ih : join sep (q :: ps ++ qs) = join sep (q :: ps) ++ sep :: join sep qs :=
      join_append sep (by simp) hq
    rw [List.cons_append, join_cons_of_ne_nil sep p (by simp), ih, join,
      List.append_assoc, List.cons_append]

/-- Splitting undoes joining, for pieces without the separator. -/
theorem split_join {sep : Char} : ∀ {ps : List (List Char)}, ps ≠ [] → (∀ p ∈ ps, sep ∉ p) →
    split sep (join sep ps) = ps
  | [], h, _ => absurd rfl h
  | [p], _, h => split_of_not_mem (h p (by simp))
  | p :: q :: ps, _, h => by
    have ih : split sep (join sep (q :: ps)) = q :: ps :=
      split_join (by simp) fun x hx => h x (by simp [List.mem_cons.1 hx])
    rw [join, split_append (h p (by simp)), ih]

end DialogueExport.Text
