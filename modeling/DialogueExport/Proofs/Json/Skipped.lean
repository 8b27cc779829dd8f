import DialogueExport.Proofs.Json.Tokens

/-!
# What is passed over

The walk over a value that nobody wants takes exactly the spellings of trees.

* A spelling is taken to its end, whatever brackets are open around it (`skipFrom_spelling`).  This
  is an induction on the tree; in each bracket it is one on the parts (`skipParts_elements`,
  `skipParts_members`).
* What the walk takes is a spelling (`exists_of_skipFrom`).  The walk goes into a bracket and comes
  out of it without a call that returns, so this is an induction on the length of the text.
* A value in brackets ends with its own bracket, so a text starts with one of them at most
  (`Spells.append_inj`).
-/

namespace DialogueExport.Json

/-! ## 1. One step of the walk -/

/-- The walk from behind an opening bracket or from behind a part of it on. -/
def skipParts (b : Bracket) (first : Bool) (outer : List Bracket) (s : List Char) :
    Except Fault (List Char) :=
  if first then skipFrom (.opened b) outer s else skipFrom .ended (b :: outer) s

theorem skipFrom_ended_nil (s : List Char) : skipFrom .ended [] s = .ok s := by
  rw [skipFrom]

theorem skipFrom_value (outer : List Bracket) (s : List Char) :
    skipFrom .value outer s =
      match skipSpace s with
      | [] => .error (.here .endInValue [])
      | c :: r =>
        if c = '[' then skipParts .list true outer r
        else if c = '\x7b' then skipParts .object true outer r
        else skipScalar c r >>= skipFrom .ended outer := by
  rw [skipFrom]
  split
  · next h => rw [h]
  · next c r h =>
    simp only [h, skipParts, if_true]
    split
    · rfl
    split
    · rfl
    split
    · next f hf => rw [hf]; rfl
    · next t ht => rw [ht]; rfl

theorem skipParts_list_true (outer : List Bracket) (s : List Char) :
    skipParts .list true outer s =
      match skipSpace s with
      | [] => .error (.here .endInList [])
      | c :: r =>
        if c = ']' then skipFrom .ended outer r
        else skipFrom .value (.list :: outer) (c :: r) := by
  rw [skipParts, if_pos rfl, skipFrom]
  split
  · next h => rw [h]
  · next c r h => rw [h]

theorem skipParts_list_false (outer : List Bracket) (s : List Char) :
    skipParts .list false outer s =
      match skipSpace s with
      | [] => .error (.here .endInList [])
      | c :: r =>
        if c = ']' then skipFrom .ended outer r
        else if c = ',' then skipFrom .value (.list :: outer) r
        else .error (.next .noCommaOrListEnd (c :: r)) := by
  rw [skipParts, if_neg (by decide), skipFrom]
  split
  · next h => rw [h]
  · next c r h => rw [h]

theorem skipParts_object_true (outer : List Bracket) (s : List Char) :
    skipParts .object true outer s =
      match skipSpace s with
      | [] => .error (.here .endInObject [])
      | c :: r =>
        if c = '\x7d' then skipFrom .ended outer r
        else skipKey (c :: r) >>= skipFrom .value (.object :: outer) := by
  rw [skipParts, if_pos rfl, skipFrom]
  split
  · next h => rw [h]
  · next c r h =>
    simp only [h]
    split
    · rfl
    split
    · next f hf => rw [hf]; rfl
    · next t ht => rw [ht]; rfl

theorem skipParts_object_false (outer : List Bracket) (s : List Char) :
    skipParts .object false outer s =
      match skipSpace s with
      | [] => .error (.here .endInObject [])
      | c :: r =>
        if c = '\x7d' then skipFrom .ended outer r
        else if c = ',' then skipKey r >>= skipFrom .value (.object :: outer)
        else .error (.next .noCommaOrObjectEnd (c :: r)) := by
  rw [skipParts, if_neg (by decide), skipFrom]
  split
  · next h => rw [h]
  · next c r h =>
    simp only [h]
    split
    · rfl
    split
    · split
      · next f hf => rw [hf]; rfl
      · next t ht => rw [ht]; rfl
    · rfl

/-! ## 2. Spellings are passed over -/

theorem skipFrom_gap {w : List Char} (hw : Gap w) (outer : List Bracket) (s : List Char) :
    skipFrom .value outer (w ++ s) = skipFrom .value outer s := by
  rw [skipFrom_value, skipFrom_value, skipSpace_append hw]

/-- The character that closes a bracket. -/
def Bracket.close : Bracket → Char
  | .list => ']'
  | .object => '\x7d'

theorem skipParts_close (b : Bracket) (first : Bool) (outer : List Bracket) {w : List Char}
    (hw : Gap w) (r : List Char) :
    skipParts b first outer (w ++ b.close :: r) = skipFrom .ended outer r := by
  have hs : skipSpace (w ++ b.close :: r) = b.close :: r := by
    rw [skipSpace_append hw]
    cases b <;> exact skipSpace_cons (by decide) r
  cases b <;> cases first
  · rw [skipParts_list_false, hs]; rfl
  · rw [skipParts_list_true, hs]; rfl
  · rw [skipParts_object_false, hs]; rfl
  · rw [skipParts_object_true, hs]; rfl

/-- The walk goes over what stands in front of an element. -/
theorem skipParts_element {v w s : List Char} (hv : Gap v) (hw : Gap w) {c : Char}
    (hspace : isSpace c = false) (hclose : c ≠ ']') (first : Bool) (outer : List Bracket) :
    skipParts .list first outer (v ++ (separator first ++ (w ++ c :: s))) =
      skipFrom .value (.list :: outer) (c :: s) := by
  cases first with
  | true =>
    rw [skipParts_list_true, separator, if_pos rfl, List.nil_append, skipSpace_append hv,
      skipSpace_append hw, skipSpace_cons hspace]
    exact if_neg hclose
  | false =>
    rw [skipParts_list_false, skipSpace_separator hv, ← skipFrom_gap hw]
    rfl

theorem skipKey_body (b : Body) {w v : List Char} (hw : Gap w) (hv : Gap v) (s : List Char) :
    skipKey (w ++ '"' :: (b.chars ++ '"' :: (v ++ ':' :: s))) = .ok s := by
  rw [skipKey, skipSpace_append hw, skipSpace_cons (by decide)]
  simp only [if_true, skipText_body b.valid, bind, Except.bind]
  exact readColon_gap hv s

/-- The walk goes over what stands in front of the value of a member. -/
theorem skipParts_member {v w u : List Char} (hv : Gap v) (hw : Gap w) (hu : Gap u) (b : Body)
    (first : Bool) (outer : List Bracket) (s : List Char) :
    skipParts .object first outer
        (v ++ (separator first ++ (w ++ '"' :: (b.chars ++ '"' :: (u ++ ':' :: s))))) =
      skipFrom .value (.object :: outer) s := by
  cases first with
  | true =>
    rw [skipParts_object_true, separator, if_pos rfl, List.nil_append, skipSpace_append hv,
      skipSpace_append hw, skipSpace_cons (by decide)]
    have := skipKey_body b gap_nil hu s
    rw [List.nil_append] at this
    simp only [show ('"' : Char) ≠ '\x7d' by decide, if_false, this]
    rfl
  | false =>
    rw [skipParts_object_false, skipSpace_separator hv]
    simp only [show (',' : Char) ≠ '\x7d' by decide, if_false, if_true, skipKey_body b hw hu s]
    rfl

theorem apart_cons {c : Char} (h : isSpace c = true ∨ c ∈ [',', ']', '\x7d']) (s : List Char) :
    Apart (c :: s) := by
  intro d hd
  cases hd
  simp only [isSpace, Bool.or_eq_true, beq_iff_eq, List.mem_cons, List.not_mem_nil, or_false] at h
  rcases h with (((rfl | rfl) | rfl) | rfl) | rfl | rfl | rfl <;> decide

theorem apart_gap {w : List Char} (hw : Gap w) {c : Char} (hc : c ∈ [',', ']', '\x7d'])
    (s : List Char) : Apart (w ++ c :: s) := by
  cases w with
  | nil => exact apart_cons (Or.inr hc) s
  | cons d w => exact apart_cons (Or.inl (hw d List.mem_cons_self)) _

/-- Behind a part stands a comma or a bracket. -/
theorem Parts.apart {α : Type} {part : α → List Char → Prop} {b : Bracket} {l : List α}
    {s : List Char} (h : Parts part b.close false l s) (rest : List Char) : Apart (s ++ rest) := by
  cases h with
  | nil gap =>
    rw [List.append_assoc]
    exact apart_gap gap (by cases b <;> decide) rest
  | cons before behind head tail =>
    rw [List.append_assoc]
    exact apart_gap before (by decide) _

/-- What the walk does at a part that it takes whole. -/
def Taken (t : Tree) (s : List Char) : Prop :=
  Spells t s ∧ ∀ outer rest, Apart rest →
    skipFrom .value outer (s ++ rest) = skipFrom .ended outer rest

theorem skipParts_elements {first : Bool} {ts : List Tree} {s : List Char}
    (h : Parts Taken ']' first ts s) (outer : List Bracket) (rest : List Char) :
    skipParts .list first outer (s ++ rest) = skipFrom .ended outer rest := by
  induction h with
  | @nil first w gap =>
    rw [List.append_assoc]
    exact skipParts_close .list first outer gap rest
  | @cons first t ts v w p s before behind head tail ih =>
    obtain ⟨hp, htake⟩ := head
    obtain ⟨c, r, rfl, hc⟩ := hp.exists_cons
    simp only [List.append_assoc, List.cons_append]
    rw [skipParts_element before behind hc.isSpace hc.ne_close, ← List.cons_append,
      htake _ _ (tail.apart (b := .list) rest), ← ih]
    rfl

theorem skipParts_members {first : Bool} {ms : List (Body × Tree)} {s : List Char}
    (h : Parts (Member Taken) '\x7d' first ms s) (outer : List Bracket) (rest : List Char) :
    skipParts .object first outer (s ++ rest) = skipFrom .ended outer rest := by
  induction h with
  | @nil first w gap =>
    rw [List.append_assoc]
    exact skipParts_close .object first outer gap rest
  | @cons first m ms v w p s before behind head tail ih =>
    obtain @⟨key, t, v', w', p, hv', hw', -, htake⟩ := head
    simp only [List.append_assoc, List.cons_append]
    rw [skipParts_member before behind hv' key, skipFrom_gap hw',
      htake _ _ (tail.apart (b := .object) rest), ← ih]
    rfl

/-- **Every spelling is passed over.**  A word must not go on behind its end; a string and a
bracket end by themselves. -/
theorem skipFrom_spelling {t : Tree} : ∀ {s : List Char}, Spells t s → ∀ outer rest,
    (∀ w, t = .word w → Apart rest) →
      skipFrom .value outer (s ++ rest) = skipFrom .ended outer rest := by
  induction t using Tree.induct with
  | word w =>
    intro s h outer rest hrest
    cases h
    obtain ⟨c, r, hw, hc⟩ := w.valid.exists_cons
    have hword : IsWord (c :: r) := hw ▸ w.valid
    rw [hw, List.cons_append, skipFrom_value, skipSpace_cons (isSpace_of_startsWord hc)]
    simp only [ne_of_startsWord hc (show startsWord '[' = false by decide),
      ne_of_startsWord hc (show startsWord '\x7b' = false by decide), if_false]
    rw [skipScalar_word hword (hrest w rfl)]
    rfl
  | text b =>
    intro s h outer rest hrest
    cases h
    rw [List.cons_append, List.append_assoc, skipFrom_value, skipSpace_cons (by decide)]
    have hskip : skipScalar '"' (b.chars ++ (['"'] ++ rest)) = .ok rest :=
      skipText_body b.valid rest
    simp only [show ('"' : Char) ≠ '[' by decide, show ('"' : Char) ≠ '\x7b' by decide, if_false,
      hskip]
    rfl
  | list ts ih =>
    intro s h outer rest _
    cases h with | list parts =>
    rw [List.cons_append, skipFrom_value, skipSpace_cons (by decide)]
    simp only [if_true]
    refine skipParts_elements (parts.imp ?_) outer rest
    intro t ht p hp
    exact ⟨hp, fun outer rest hrest => ih t ht hp outer rest fun _ _ => hrest⟩
  | object ms ih =>
    intro s h outer rest _
    cases h with | object parts =>
    rw [List.cons_append, skipFrom_value, skipSpace_cons (by decide)]
    simp only [show ('\x7b' : Char) ≠ '[' by decide, if_false, if_true]
    refine skipParts_members (parts.imp ?_) outer rest
    rintro ⟨key, t⟩ ht p ⟨before, behind, hp⟩
    exact .mk before behind ⟨hp, fun outer rest hrest => ih _ ht hp outer rest fun _ _ => hrest⟩

/-! ## 3. What is passed over is a spelling -/

theorem exists_of_skipKey {s r : List Char} (h : skipKey s = .ok r) :
    ∃ w b v, Gap w ∧ Gap v ∧ s = w ++ '"' :: (Body.chars b ++ '"' :: (v ++ ':' :: r)) := by
  obtain ⟨w, hw, hs⟩ := exists_gap s
  unfold skipKey at h
  split at h
  · cases h
  · next c t ht =>
    split at h
    · next hc =>
      obtain ⟨u, hu, hcolon⟩ := bind_eq_ok.mp h
      obtain ⟨b, hb, rfl⟩ := exists_body_of_skipText hu
      obtain ⟨v, hv, rfl⟩ := exists_gap_of_readColon hcolon
      exact ⟨w, ⟨b, hb⟩, v, hw, hv, by rw [hs, ht, hc]⟩
    · cases h

theorem skipParts_list_cases {first : Bool} {outer : List Bracket} {s r : List Char}
    (h : skipParts .list first outer s = .ok r) :
    (∃ w t, Gap w ∧ s = w ++ ']' :: t ∧ skipFrom .ended outer t = .ok r) ∨
      ∃ v t, Gap v ∧ s = v ++ (separator first ++ t) ∧
        skipFrom .value (.list :: outer) t = .ok r := by
  obtain ⟨w, hw, hs⟩ := exists_gap s
  cases first with
  | true =>
    rw [skipParts_list_true] at h
    split at h
    · cases h
    · next c t ht =>
      rw [ht] at hs
      split at h
      · next hc => exact Or.inl ⟨w, t, hw, by rw [hs, hc], h⟩
      · exact Or.inr ⟨w, c :: t, hw, hs, h⟩
  | false =>
    rw [skipParts_list_false] at h
    split at h
    · cases h
    · next c t ht =>
      rw [ht] at hs
      split at h
      · next hc => exact Or.inl ⟨w, t, hw, by rw [hs, hc], h⟩
      split at h
      · next hc => exact Or.inr ⟨w, t, hw, by rw [hs, hc]; rfl, h⟩
      · cases h

theorem skipParts_object_cases {first : Bool} {outer : List Bracket} {s r : List Char}
    (h : skipParts .object first outer s = .ok r) :
    (∃ w t, Gap w ∧ s = w ++ '\x7d' :: t ∧ skipFrom .ended outer t = .ok r) ∨
      ∃ v w b u t, Gap v ∧ Gap w ∧ Gap u ∧
        s = v ++ (separator first ++ (w ++ '"' :: (Body.chars b ++ '"' :: (u ++ ':' :: t)))) ∧
        skipFrom .value (.object :: outer) t = .ok r := by
  obtain ⟨v, hv, hs⟩ := exists_gap s
  cases first with
  | true =>
    rw [skipParts_object_true] at h
    split at h
    · cases h
    · next c t ht =>
      rw [ht] at hs
      split at h
      · next hc => exact Or.inl ⟨v, t, hv, by rw [hs, hc], h⟩
      · obtain ⟨u, hu, h⟩ := bind_eq_ok.mp h
        obtain ⟨w, b, x, hw, hx, hcut⟩ := exists_of_skipKey hu
        exact Or.inr ⟨v, w, b, x, u, hv, hw, hx, by rw [hs, hcut]; rfl, h⟩
  | false =>
    rw [skipParts_object_false] at h
    split at h
    · cases h
    · next c t ht =>
      rw [ht] at hs
      split at h
      · next hc => exact Or.inl ⟨v, t, hv, by rw [hs, hc], h⟩
      split at h
      · next hc =>
        obtain ⟨u, hu, h⟩ := bind_eq_ok.mp h
        obtain ⟨w, b, x, hw, hx, hcut⟩ := exists_of_skipKey hu
        exact Or.inr ⟨v, w, b, x, u, hv, hw, hx, by rw [hs, hc, hcut]; rfl, h⟩
      · cases h

mutual

/-- **Only spellings are passed over.**  Behind the spelling the walk goes on with the brackets
that were open in front of it. -/
theorem exists_of_skipFrom {outer : List Bracket} {s r : List Char}
    (h : skipFrom .value outer s = .ok r) :
    ∃ w t u s', s = w ++ (u ++ s') ∧ Gap w ∧ Spells t u ∧ skipFrom .ended outer s' = .ok r := by
  obtain ⟨w, hw, hs⟩ := exists_gap s
  rw [skipFrom_value] at h
  split at h
  · cases h
  next c t ht =>
  rw [ht] at hs
  have hlen : t.length < s.length := length_lt_of_skipSpace ht
  split at h
  · next hc =>
    obtain ⟨ts, u, s', rfl, hu, h⟩ := exists_of_skipElements h
    exact ⟨w, .list ts, '[' :: u, s', by rw [hs, hc]; rfl, hw, .list hu, h⟩
  split at h
  · next hc =>
    obtain ⟨ms, u, s', rfl, hu, h⟩ := exists_of_skipMembers h
    exact ⟨w, .object ms, '\x7b' :: u, s', by rw [hs, hc]; rfl, hw, .object hu, h⟩
  · obtain ⟨s', hs', hend⟩ := bind_eq_ok.mp h
    obtain ⟨v, u, hu, rfl⟩ := exists_of_skipScalar hs'
    exact ⟨w, v, c :: u, s', hs, hw, hu, hend⟩
termination_by 2 * s.length

theorem exists_of_skipElements {first : Bool} {outer : List Bracket} {s r : List Char}
    (h : skipParts .list first outer s = .ok r) :
    ∃ ts u s', s = u ++ s' ∧ Parts Spells ']' first ts u ∧ skipFrom .ended outer s' = .ok r := by
  rcases skipParts_list_cases h with ⟨w, s', hw, hs, h⟩ | ⟨v, t, hv, hs, h⟩
  · exact ⟨[], w ++ [']'], s', by rw [hs]; simp, .nil hw, h⟩
  · have hlen : t.length ≤ s.length := by rw [hs]; simp; omega
    obtain ⟨w, a, u, s', ht, hw, hu, h⟩ := exists_of_skipFrom h
    have hlen' : s'.length < s.length := by
      obtain ⟨c, x, rfl, -⟩ := hu.exists_cons
      rw [ht] at hlen
      simp only [List.length_append, List.length_cons] at hlen
      omega
    have hparts : skipParts .list false outer s' = .ok r := h
    obtain ⟨ts, x, s'', rfl, hx, h⟩ := exists_of_skipElements hparts
    exact ⟨a :: ts, v ++ (separator first ++ (w ++ (u ++ x))), s'', by rw [hs, ht]; simp,
      .cons hv hw hu hx, h⟩
termination_by 2 * s.length + 1

theorem exists_of_skipMembers {first : Bool} {outer : List Bracket} {s r : List Char}
    (h : skipParts .object first outer s = .ok r) :
    ∃ ms u s', s = u ++ s' ∧ Parts (Member Spells) '\x7d' first ms u ∧
      skipFrom .ended outer s' = .ok r := by
  rcases skipParts_object_cases h with ⟨w, s', hw, hs, h⟩ | ⟨v, w, b, x, t, hv, hw, hx, hs, h⟩
  · exact ⟨[], w ++ ['\x7d'], s', by rw [hs]; simp, .nil hw, h⟩
  · have hlen : t.length < s.length := by rw [hs]; simp; omega
    obtain ⟨y, a, u, s', ht, hy, hu, h⟩ := exists_of_skipFrom h
    have hlen' : s'.length < s.length := by
      rw [ht] at hlen
      simp only [List.length_append] at hlen
      omega
    have hparts : skipParts .object false outer s' = .ok r := h
    obtain ⟨ms, z, s'', rfl, hz, h⟩ := exists_of_skipMembers hparts
    refine ⟨(b, a) :: ms, _, s'', ?_, .cons hv hw (.mk hx hy hu) hz, h⟩
    rw [hs, ht]
    simp
termination_by 2 * s.length + 1

end

theorem exists_of_skipValue {s r : List Char} (h : skipValue s = .ok r) :
    ∃ w t u, s = w ++ (u ++ r) ∧ Gap w ∧ Spells t u := by
  obtain ⟨w, t, u, s', hs, hw, hu, hend⟩ := exists_of_skipFrom h
  rw [skipFrom_ended_nil] at hend
  cases hend
  exact ⟨w, t, u, hs, hw, hu⟩

theorem skipValue_spelling {t : Tree} {w s rest : List Char} (hw : Gap w) (h : Spells t s)
    (hrest : ∀ w, t = .word w → Apart rest) : skipValue (w ++ (s ++ rest)) = .ok rest := by
  rw [skipValue, skipFrom_gap hw, skipFrom_spelling h [] rest hrest, skipFrom_ended_nil]

/-! ## 4. Where a value ends -/

theorem Parts.exists_concat {α : Type} {part : α → List Char → Prop} {close : Char} {first : Bool}
    {l : List α} {s : List Char} (h : Parts part close first l s) : ∃ x, s = x ++ [close] := by
  induction h with
  | nil gap => exact ⟨_, rfl⟩
  | @cons first a l v w p s before behind head tail ih =>
    obtain ⟨x, rfl⟩ := ih
    exact ⟨v ++ (separator first ++ (w ++ (p ++ x))), by simp⟩

/-- A string and a value in brackets end with their own last character. -/
theorem Spells.exists_concat {t : Tree} {s : List Char} (h : Spells t s)
    (hword : ∀ w, t ≠ .word w) : ∃ x c, s = x ++ [c] ∧ isSpace c = false := by
  cases h with
  | word w => exact absurd rfl (hword w)
  | text b => exact ⟨'"' :: b.chars, '"', rfl, by decide⟩
  | list parts =>
    obtain ⟨x, rfl⟩ := parts.exists_concat
    exact ⟨'[' :: x, ']', rfl, by decide⟩
  | object parts =>
    obtain ⟨x, rfl⟩ := parts.exists_concat
    exact ⟨'\x7b' :: x, '\x7d', rfl, by decide⟩

/-- A text starts with one string or value in brackets at most: two that it starts with are the
same. -/
theorem Spells.append_inj {t t' : Tree} {v v' s s' r r' : List Char} (h : Spells t s)
    (h' : Spells t' s') (hv : Gap v) (hv' : Gap v') (hword : ∀ w, t ≠ .word w)
    (hword' : ∀ w, t' ≠ .word w) (heq : v ++ (s ++ r) = v' ++ (s' ++ r')) : r = r' := by
  have hskip : skipValue (v ++ (s ++ r)) = .ok r :=
    skipValue_spelling hv h fun w hw => absurd hw (hword w)
  rw [heq, skipValue_spelling hv' h' fun w hw => absurd hw (hword' w)] at hskip
  cases hskip
  rfl

end DialogueExport.Json
