import Mathlib.Data.List.TakeWhile
import DialogueExport.Json.Compound

/-!
# One step of a reader

A reader of a bracket goes from part to part.  Here is what one such step does, in both directions:
what is found behind the white space, commas and colons that may stand there, and what must stand
there if something is found.  The readers themselves are recursive functions that keep proofs about
each step; their equations are stated without these (`readElements_eq`, `readEntries_eq`,
`readNamed_eq`).
-/

namespace DialogueExport.Json

variable {α β σ : Type}

/-! ## 1. White space -/

/-- White space between tokens. -/
def Gap (w : List Char) : Prop := ∀ c ∈ w, isSpace c = true

theorem gap_nil : Gap [] := fun _ h => absurd h List.not_mem_nil

theorem Gap.append {v w : List Char} (hv : Gap v) (hw : Gap w) : Gap (v ++ w) := by
  intro c hc
  rcases List.mem_append.mp hc with hc | hc
  · exact hv c hc
  · exact hw c hc

/-- White space is what stands in front of what is left when it is skipped. -/
theorem exists_gap (s : List Char) : ∃ w, Gap w ∧ s = w ++ skipSpace s :=
  ⟨s.takeWhile isSpace, fun _ hc => List.mem_takeWhile_imp hc,
    (List.takeWhile_append_dropWhile).symm⟩

/-! ## 2. Between the parts -/

/-- What stands in front of a part: a comma, unless the part is the first. -/
def separator (first : Bool) : List Char := if first then [] else [',']

theorem skipSpace_separator {v : List Char} (hv : Gap v) (s : List Char) :
    skipSpace (v ++ (separator false ++ s)) = ',' :: s := by
  rw [skipSpace_append hv]
  exact skipSpace_cons (by decide) s

theorem nextElement_of_close (first : Bool) {w : List Char} (hw : Gap w) (rest : List Char) :
    nextElement first (w ++ ']' :: rest) = .ok none := by
  rw [nextElement, skipSpace_append hw, skipSpace_cons (by decide)]
  rfl

theorem nextElement_of_cons {v w : List Char} (hv : Gap v) (hw : Gap w) {c : Char}
    (hspace : isSpace c = false) (hclose : c ≠ ']') (first : Bool) (r : List Char) :
    nextElement first (v ++ (separator first ++ (w ++ c :: r))) = .ok (some (c :: r)) := by
  cases first with
  | true =>
    rw [nextElement, separator, if_pos rfl, List.nil_append, skipSpace_append hv,
      skipSpace_append hw, skipSpace_cons hspace]
    exact if_neg hclose
  | false =>
    rw [nextElement, skipSpace_separator hv]
    simp only [skipSpace_append hw, skipSpace_cons hspace, hclose, if_false, if_true,
      show (',' : Char) ≠ ']' by decide, Bool.false_eq_true]

theorem nextElement_eq_some {first : Bool} {s r : List Char}
    (h : nextElement first s = .ok (some r)) :
    ∃ v w, Gap v ∧ Gap w ∧ s = v ++ (separator first ++ (w ++ r)) := by
  obtain ⟨v, hv, hs⟩ := exists_gap s
  unfold nextElement at h
  split at h
  · cases h
  · next c t hc =>
    rw [hc] at hs
    split at h
    · cases h
    split at h
    · next hfirst =>
      cases h
      exact ⟨v, [], hv, gap_nil, by rw [hs, hfirst]; rfl⟩
    next hfirst =>
    split at h
    · next hcomma =>
      obtain ⟨w, hw, ht⟩ := exists_gap t
      split at h
      · cases h
      · next d u hd =>
        rw [hd] at ht
        split at h
        · cases h
        · cases h
          have hfalse : first = false := Bool.eq_false_iff.mpr hfirst
          exact ⟨v, w, hv, hw, by rw [hs, hcomma, ht, hfalse]; rfl⟩
    · cases h

theorem nextKey_of_close (first : Bool) {w : List Char} (hw : Gap w) (rest : List Char) :
    nextKey first (w ++ '\x7d' :: rest) = .ok none := by
  rw [nextKey, skipSpace_append hw, skipSpace_cons (by decide)]
  rfl

theorem nextKey_of_cons {v w : List Char} (hv : Gap v) (hw : Gap w) (first : Bool)
    (r : List Char) : nextKey first (v ++ (separator first ++ (w ++ '"' :: r))) = .ok (some r) := by
  have hquote : isSpace '"' = false := by decide
  cases first with
  | true =>
    rw [nextKey, separator, if_pos rfl, List.nil_append, skipSpace_append hv,
      skipSpace_append hw, skipSpace_cons hquote]
    rfl
  | false =>
    rw [nextKey, skipSpace_separator hv]
    simp only [skipSpace_append hw, skipSpace_cons hquote, if_false, if_true,
      show (',' : Char) ≠ '\x7d' by decide, Bool.false_eq_true]

theorem nextKey_eq_some {first : Bool} {s r : List Char} (h : nextKey first s = .ok (some r)) :
    ∃ v w, Gap v ∧ Gap w ∧ s = v ++ (separator first ++ (w ++ '"' :: r)) := by
  obtain ⟨v, hv, hs⟩ := exists_gap s
  unfold nextKey at h
  split at h
  · cases h
  · next c t hc =>
    rw [hc] at hs
    split at h
    · cases h
    split at h
    · next hfirst =>
      split at h
      · next hquote =>
        cases h
        exact ⟨v, [], hv, gap_nil, by rw [hs, hfirst, hquote]; rfl⟩
      · cases h
    next hfirst =>
    split at h
    · next hcomma =>
      obtain ⟨w, hw, ht⟩ := exists_gap t
      split at h
      · cases h
      · next d u hd =>
        rw [hd] at ht
        split at h
        · next hquote =>
          cases h
          have hfalse : first = false := Bool.eq_false_iff.mpr hfirst
          exact ⟨v, w, hv, hw, by rw [hs, hcomma, ht, hquote, hfalse]; rfl⟩
        · split at h <;> cases h
    · cases h

theorem readColon_gap {w : List Char} (hw : Gap w) (r : List Char) :
    readColon (w ++ ':' :: r) = .ok r := by
  rw [readColon, skipSpace_append hw, skipSpace_cons (by decide)]
  rfl

theorem exists_gap_of_readColon {s r : List Char} (h : readColon s = .ok r) :
    ∃ w, Gap w ∧ s = w ++ ':' :: r := by
  obtain ⟨w, hw, hs⟩ := exists_gap s
  unfold readColon at h
  split at h
  · cases h
  · next c t ht =>
    split at h
    · next hc =>
      cases h
      exact ⟨w, hw, by rw [hs, ht, hc]⟩
    · cases h

/-! ## 3. Closing a bracket -/

theorem closeList_gap {w : List Char} (hw : Gap w) (rest : List Char) :
    closeList (w ++ ']' :: rest) = .closed rest := by
  rw [closeList, skipSpace_append hw, skipSpace_cons (by decide)]
  rfl

/-- An element does not close a list. -/
theorem closeList_of_cons {v w : List Char} (hv : Gap v) (hw : Gap w) {c : Char}
    (hspace : isSpace c = false) (hclose : c ≠ ']') (first : Bool) (r : List Char) :
    ∃ f u, closeList (v ++ (separator first ++ (w ++ c :: r))) = .refused f u := by
  cases first with
  | true =>
    rw [closeList, separator, if_pos rfl, List.nil_append, skipSpace_append hv,
      skipSpace_append hw, skipSpace_cons hspace]
    simp only [hclose, if_false]
    split <;> exact ⟨_, _, rfl⟩
  | false =>
    rw [closeList, skipSpace_separator hv]
    exact ⟨_, _, rfl⟩

theorem closeList_eq_closed {s r : List Char} (h : closeList s = .closed r) :
    ∃ w, Gap w ∧ s = w ++ ']' :: r := by
  obtain ⟨w, hw, hs⟩ := exists_gap s
  unfold closeList at h
  split at h
  · cases h
  · next c t hc =>
    rw [hc] at hs
    split at h
    · next hclose =>
      cases h
      exact ⟨w, hw, by rw [hs, hclose]⟩
    · split at h <;> cases h

theorem closeObject_gap {w : List Char} (hw : Gap w) (rest : List Char) :
    closeObject (w ++ '\x7d' :: rest) = .closed rest := by
  rw [closeObject, skipSpace_append hw, skipSpace_cons (by decide)]
  rfl

theorem closeObject_eq_closed {s r : List Char} (h : closeObject s = .closed r) :
    ∃ w, Gap w ∧ s = w ++ '\x7d' :: r := by
  obtain ⟨w, hw, hs⟩ := exists_gap s
  unfold closeObject at h
  split at h
  · cases h
  · next c t hc =>
    rw [hc] at hs
    split at h
    · next hclose =>
      cases h
      exact ⟨w, hw, by rw [hs, hclose]⟩
    · split at h <;> cases h

/-! ## 4. One step of a reader -/

namespace Reader

theorem run_text : Reader.text.run = readString := rfl

theorem run_nullable (value : Reader α) : (nullable value).run = readNullable value := rfl

theorem run_map (f : α → β) (value : Reader α) : (value.map f).run = readMapped f value := rfl

theorem run_list (value : Reader α) : (list value).run = readList value := rfl

theorem run_entries (value : Reader α) : (entries value).run = readObject value := rfl

theorem run_record (shape : Shape σ α) : (record shape).run = shape.read := rfl

end Reader

theorem readElements_eq (value : Reader α) (first : Bool) (s : List Char) :
    readElements value first s =
      match nextElement first s with
      | .error f => .error f
      | .ok none => .ok ([], s)
      | .ok (some r) =>
        value.run r >>= fun p =>
          (readElements value false p.2).map fun (l, rest) => (p.1 :: l, rest) := by
  rw [readElements]
  split
  · next f h => rw [h]
  · next h => rw [h]
  · next r h =>
    rw [h]
    dsimp only
    split
    · next f hv => rw [hv]; rfl
    · next a t hv => rw [hv]; rfl

theorem readElements_of_end {value : Reader α} {first : Bool} {s : List Char}
    (h : nextElement first s = .ok none) : readElements value first s = .ok ([], s) := by
  rw [readElements_eq, h]

theorem readElements_of_next {value : Reader α} {first : Bool} {s r t : List Char} {a : α}
    (h : nextElement first s = .ok (some r)) (hv : value.run r = .ok (a, t)) :
    readElements value first s =
      (readElements value false t).map fun (l, rest) => (a :: l, rest) := by
  rw [readElements_eq, h]
  simp only [bind, Except.bind, hv]

theorem readEntries_eq (value : Reader α) (first : Bool) (s : List Char) :
    readEntries value first s =
      match nextKey first s with
      | .error f => .error f
      | .ok none => .ok ([], s)
      | .ok (some r) =>
        readText r >>= fun k => readColon k.2 >>= value.run >>= fun p =>
          (readEntries value false p.2).map fun (l, rest) =>
            ((String.ofList k.1, p.1) :: l, rest) := by
  rw [readEntries]
  split
  · next f h => rw [h]
  · next h => rw [h]
  · next r h =>
    rw [h]
    dsimp only
    split
    · next f hk => rw [hk]; rfl
    next key t hk =>
    rw [hk]
    simp only [bind, Except.bind]
    split
    · next f hc => rw [hc]
    next u hc =>
    rw [hc]
    dsimp only
    split
    · next f hv => rw [hv]
    · next a x hv => rw [hv]

theorem readEntries_of_end {value : Reader α} {first : Bool} {s : List Char}
    (h : nextKey first s = .ok none) : readEntries value first s = .ok ([], s) := by
  rw [readEntries_eq, h]

theorem readEntries_of_next {value : Reader α} {first : Bool} {s r t u v key : List Char} {a : α}
    (h : nextKey first s = .ok (some r)) (hk : readText r = .ok (key, t))
    (hc : readColon t = .ok u) (hv : value.run u = .ok (a, v)) :
    readEntries value first s =
      (readEntries value false v).map fun (l, rest) => ((String.ofList key, a) :: l, rest) := by
  rw [readEntries_eq, h]
  simp only [bind, Except.bind, hk, hc, hv]

/-- What a field of the type does with the text behind its key, and what becomes of the others. -/
def readMember (fields : List (RecordField σ)) (draft : σ) (key : String) (s : List Char) :
    Except Fault (σ × List Char) :=
  match fields.find? fun f => f.name = key with
  | some field =>
    if field.isSet draft then .error (.floating (.repeatedField field.name) s)
    else readColon s >>= field.read.run >>= fun p => .ok (p.1 draft, p.2)
  | none => readColon s >>= skipValue >>= fun r => .ok (draft, r)

theorem readNamed_eq (fields : List (RecordField σ)) (first : Bool) (draft : σ) (s : List Char) :
    readNamed fields first draft s =
      match nextKey first s with
      | .error f => .error f
      | .ok none => .ok (draft, s)
      | .ok (some r) =>
        readText r >>= fun k => readMember fields draft (String.ofList k.1) k.2 >>= fun p =>
          readNamed fields false p.1 p.2 := by
  rw [readNamed]
  split
  · next f h => rw [h]
  · next h => rw [h]
  · next r h =>
    rw [h]
    dsimp only
    split
    · next f hk => rw [hk]; rfl
    next key t hk =>
    rw [hk]
    simp only [bind, Except.bind, readMember]
    split
    · next field hfind =>
      rw [hfind]
      dsimp only
      split
      · rfl
      split
      · next f hc => rw [hc]
      next u hc =>
      rw [hc]
      dsimp only
      split
      · next f hv => rw [hv]
      · next write x hv => rw [hv]
    · next hfind =>
      rw [hfind]
      dsimp only
      split
      · next f hc => rw [hc]
      next u hc =>
      rw [hc]
      dsimp only
      split
      · next f hv => rw [hv]
      · next x hv => rw [hv]

theorem readNamed_of_end {fields : List (RecordField σ)} {first : Bool} {draft : σ} {s : List Char}
    (h : nextKey first s = .ok none) : readNamed fields first draft s = .ok (draft, s) := by
  rw [readNamed_eq, h]

/-- A field of the type that the draft lacks is read into the draft. -/
theorem readNamed_of_field {fields : List (RecordField σ)} {first : Bool} {draft : σ}
    {s r t u v key : List Char} {field : RecordField σ} {write : σ → σ}
    (h : nextKey first s = .ok (some r)) (hk : readText r = .ok (key, t))
    (hf : fields.find? (fun f => f.name = String.ofList key) = some field)
    (hs : field.isSet draft = false) (hc : readColon t = .ok u)
    (hv : field.read.run u = .ok (write, v)) :
    readNamed fields first draft s = readNamed fields false (write draft) v := by
  rw [readNamed_eq, h]
  simp only [bind, Except.bind, hk, readMember, hf, hs, Bool.false_eq_true, if_false, hc, hv]

end DialogueExport.Json
