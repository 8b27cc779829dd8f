import DialogueExport.Proofs.Json.Skipped

/-!
# How far a value reaches

Every reader takes the spelling of some tree off the front of the text, with white space before it:
`Reader.Spelling` goes through all the ways to build a reader.  So a reader that succeeds has seen
a well-formed value, whatever it makes of it, and it stops where that value ends.  The values of
the fields that no type knows come from `Skipped`.

A record is written in brackets, so nothing that stands behind it can be part of it
(`bracketed_record`).
-/

namespace DialogueExport.Json

variable {α β σ : Type}

/-! ## 1. Readers without brackets of their own -/

/-- What the reader takes is white space and the spelling of a tree. -/
def Reader.Spelling (value : Reader α) : Prop :=
  ∀ s a r, value.run s = .ok (a, r) → ∃ w t u, s = w ++ (u ++ r) ∧ Gap w ∧ Spells t u

namespace Reader

/-- A text that is read as a document is the document of some tree. -/
theorem Spelling.exists_spelled {value : Reader α} (h : value.Spelling) {text : String} {a : α}
    (hd : value.decode text = .ok a) : ∃ t, Spelled t text := by
  obtain ⟨rest, hrun, hrest⟩ := decode_eq_ok_iff.mp hd
  obtain ⟨v, t, s, htext, hv, hs⟩ := h _ _ _ hrun
  obtain ⟨w, hw, hcut⟩ := exists_gap rest
  rw [hrest, List.append_nil] at hcut
  exact ⟨t, v, s, rest, htext, hv, hs, hcut ▸ hw⟩

theorem spelling_text : Reader.text.Spelling := by
  intro s a r h
  obtain ⟨w, hw, hs⟩ := exists_gap s
  rw [run_text, readString] at h
  split at h
  · cases h
  · next c t hc =>
    rw [hc] at hs
    split at h
    · next hquote =>
      obtain ⟨⟨x, y⟩, hx, h⟩ := map_eq_ok.mp h
      cases h
      obtain ⟨b, rfl⟩ := exists_body_of_readText hx
      refine ⟨w, .text b, _, ?_, hw, .text b⟩
      rw [hs, hquote]
      simp
    · cases h

theorem Spelling.nullable {value : Reader α} (h : value.Spelling) :
    (Reader.nullable value).Spelling := by
  intro s a r hr
  rw [run_nullable, readNullable] at hr
  split at hr
  · next t hs =>
    obtain ⟨w, hw, hcut⟩ := exists_gap s
    obtain ⟨u, hu, hr⟩ := map_eq_ok.mp hr
    cases hr
    rw [hs, eq_append_of_readLiteral hu] at hcut
    exact ⟨w, .null, ['n', 'u', 'l', 'l'], hcut, hw, .word _⟩
  · obtain ⟨⟨x, y⟩, hx, hr⟩ := map_eq_ok.mp hr
    cases hr
    exact h _ _ _ hx

theorem Spelling.map {value : Reader α} (h : value.Spelling) (f : α → β) :
    (value.map f).Spelling := by
  intro s b r hr
  obtain ⟨⟨a, t⟩, ha, hr⟩ := map_eq_ok.mp hr
  cases hr
  exact h _ _ _ ha

theorem Spelling.check {value : Reader α} (h : value.Spelling) (f : α → Except String β) :
    (value.check f).Spelling := by
  intro s b r hr
  obtain ⟨a, ha, -⟩ := readChecked_eq_ok.mp hr
  exact h _ _ _ ha

end Reader

/-! ## 2. Lists and tables -/

theorem parts_of_readElements {value : Reader α} (hvalue : value.Spelling) {first : Bool}
    {s r rest : List Char} {l : List α} (h : readElements value first s = .ok (l, r))
    (hclose : closeList r = .closed rest) :
    ∃ ts u, s = u ++ rest ∧ Parts Spells ']' first ts u := by
  fun_induction readElements value first s generalizing l with
  | case1 | case3 => cases h
  | case2 first s hnext =>
    cases h
    obtain ⟨w, hw, rfl⟩ := closeList_eq_closed hclose
    exact ⟨[], w ++ [']'], by simp, .nil hw⟩
  | case4 first s t hnext a u hu ih =>
    obtain ⟨⟨l', r'⟩, hr, h⟩ := map_eq_ok.mp h
    cases h
    obtain ⟨ts, x, rfl, hx⟩ := ih hr
    obtain ⟨v, w, hv, hw, rfl⟩ := nextElement_eq_some hnext
    obtain ⟨w', a', p, rfl, hw', hp⟩ := hvalue _ _ _ hu
    exact ⟨a' :: ts, v ++ (separator first ++ (w ++ w' ++ (p ++ x))), by simp,
      .cons hv (hw.append hw') hp hx⟩

theorem parts_of_readEntries {value : Reader α} (hvalue : value.Spelling) {first : Bool}
    {s r rest : List Char} {l : List (String × α)} (h : readEntries value first s = .ok (l, r))
    (hclose : closeObject r = .closed rest) :
    ∃ ms u, s = u ++ rest ∧ Parts (Member Spells) '\x7d' first ms u := by
  fun_induction readEntries value first s generalizing l with
  | case1 | case3 | case4 | case5 => cases h
  | case2 first s hnext =>
    cases h
    obtain ⟨w, hw, rfl⟩ := closeObject_eq_closed hclose
    exact ⟨[], w ++ ['\x7d'], by simp, .nil hw⟩
  | case6 first s t hnext key u hkey x hcolon a y hy ih =>
    obtain ⟨⟨l', r'⟩, hr, h⟩ := map_eq_ok.mp h
    cases h
    obtain ⟨ms, z, rfl, hz⟩ := ih hr
    obtain ⟨v, w, hv, hw, rfl⟩ := nextKey_eq_some hnext
    obtain ⟨b, rfl⟩ := exists_body_of_readText hkey
    obtain ⟨v', hv', rfl⟩ := exists_gap_of_readColon hcolon
    obtain ⟨w', t', p, rfl, hw', hp⟩ := hvalue _ _ _ hy
    refine ⟨(b, t') :: ms, _, ?_, .cons hv hw (.mk hv' hw' hp) hz⟩
    simp

theorem Reader.Spelling.list {value : Reader α} (h : value.Spelling) :
    (Reader.list value).Spelling := by
  intro s l r hr
  obtain ⟨w, hw, hs⟩ := exists_gap s
  rw [run_list, readList] at hr
  split at hr
  · cases hr
  · next c t hc =>
    rw [hc] at hs
    split at hr
    · next hopen =>
      obtain ⟨u, hu, hclose⟩ := enclosed_eq_ok.mp hr
      obtain ⟨ts, p, rfl, hp⟩ := parts_of_readElements h hu hclose
      exact ⟨w, .list ts, '[' :: p, by rw [hs, hopen]; rfl, hw, .list hp⟩
    · cases hr

theorem Reader.Spelling.entries {value : Reader α} (h : value.Spelling) :
    (Reader.entries value).Spelling := by
  intro s l r hr
  obtain ⟨w, hw, hs⟩ := exists_gap s
  rw [run_entries, readObject] at hr
  split at hr
  · cases hr
  · next c t hc =>
    rw [hc] at hs
    split at hr
    · next hopen =>
      obtain ⟨u, hu, hclose⟩ := enclosed_eq_ok.mp hr
      obtain ⟨ms, p, rfl, hp⟩ := parts_of_readEntries h hu hclose
      exact ⟨w, .object ms, '\x7b' :: p, by rw [hs, hopen]; rfl, hw, .object hp⟩
    · cases hr

/-! ## 3. Records -/

theorem parts_of_readNamed {fields : List (RecordField σ)} (hfields : ∀ f ∈ fields, f.read.Spelling)
    {first : Bool} {draft last : σ} {s r rest : List Char}
    (h : readNamed fields first draft s = .ok (last, r)) (hclose : closeObject r = .closed rest) :
    ∃ ms u, s = u ++ rest ∧ Parts (Member Spells) '\x7d' first ms u := by
  fun_induction readNamed fields first draft s with
  | case1 | case3 | case4 | case5 | case6 | case8 | case9 => cases h
  | case2 first draft s hnext =>
    cases h
    obtain ⟨w, hw, rfl⟩ := closeObject_eq_closed hclose
    exact ⟨[], w ++ ['\x7d'], by simp, .nil hw⟩
  | case7 first draft s t hnext key u hkey field hfind hset x hcolon write y hy ih =>
    obtain ⟨ms, z, rfl, hz⟩ := ih h
    obtain ⟨v, w, hv, hw, rfl⟩ := nextKey_eq_some hnext
    obtain ⟨b, rfl⟩ := exists_body_of_readText hkey
    obtain ⟨v', hv', rfl⟩ := exists_gap_of_readColon hcolon
    obtain ⟨w', t', p, rfl, hw', hp⟩ := hfields field (List.mem_of_find?_eq_some hfind) _ _ _ hy
    refine ⟨(b, t') :: ms, _, ?_, .cons hv hw (.mk hv' hw' hp) hz⟩
    simp
  | case10 first draft s t hnext key u hkey hfind x hcolon y hy ih =>
    obtain ⟨ms, z, rfl, hz⟩ := ih h
    obtain ⟨v, w, hv, hw, rfl⟩ := nextKey_eq_some hnext
    obtain ⟨b, rfl⟩ := exists_body_of_readText hkey
    obtain ⟨v', hv', rfl⟩ := exists_gap_of_readColon hcolon
    obtain ⟨w', t', p, rfl, hw', hp⟩ := exists_of_skipValue hy
    refine ⟨(b, t') :: ms, _, ?_, .cons hv hw (.mk hv' hw' hp) hz⟩
    simp

theorem parts_of_readPlaced {fields : List (RecordField σ)} :
    (∀ f ∈ fields, f.read.Spelling) → ∀ {first : Bool} {draft : σ} {p : Nat × σ}
      {s r rest : List Char}, readPlaced fields first draft s = .ok (p, r) →
      closeList r = .closed rest → ∃ ts u, s = u ++ rest ∧ Parts Spells ']' first ts u := by
  induction fields with
  | nil =>
    intro _ first draft p s r rest h hclose
    cases h
    obtain ⟨w, hw, rfl⟩ := closeList_eq_closed hclose
    exact ⟨[], w ++ [']'], by simp, .nil hw⟩
  | cons field fields ih =>
    intro hfields first draft p s r rest h hclose
    rw [readPlaced] at h
    split at h
    · cases h
    · cases h
      obtain ⟨w, hw, rfl⟩ := closeList_eq_closed hclose
      exact ⟨[], w ++ [']'], by simp, .nil hw⟩
    · next t hnext =>
      split at h
      · cases h
      · next write u hu =>
        obtain ⟨⟨q, r'⟩, hr, h⟩ := map_eq_ok.mp h
        cases h
        have htail := fun f hf => hfields f (List.mem_cons_of_mem field hf)
        obtain ⟨ts, x, rfl, hx⟩ := ih htail hr hclose
        obtain ⟨v, w, hv, hw, rfl⟩ := nextElement_eq_some hnext
        obtain ⟨w', a, y, rfl, hw', hy⟩ := hfields field List.mem_cons_self _ _ _ hu
        exact ⟨a :: ts, v ++ (separator first ++ (w ++ w' ++ (y ++ x))), by simp,
          .cons hv (hw.append hw') hy hx⟩

/-- A record is spelled as a tree in brackets. -/
theorem bracketed_record {shape : Shape σ α} (hfields : ∀ f ∈ shape.fields, f.read.Spelling)
    {s r : List Char} {a : α} (h : (Reader.record shape).run s = .ok (a, r)) :
    ∃ w t u, s = w ++ (u ++ r) ∧ Gap w ∧ Spells t u ∧ ∀ x, t ≠ .word x := by
  obtain ⟨w, hw, hs⟩ := exists_gap s
  rw [Reader.run_record, Shape.read] at h
  split at h
  · cases h
  next c t hc =>
  rw [hc] at hs
  split at h
  · next hopen =>
    obtain ⟨u, hu, hclose⟩ := enclosed_eq_ok.mp h
    obtain ⟨⟨draft, v⟩, hv, hu⟩ := bind_eq_ok.mp hu
    obtain ⟨-, rfl⟩ := Shape.finishNamed_eq_ok.mp hu
    obtain ⟨ms, p, rfl, hp⟩ := parts_of_readNamed hfields hv hclose
    refine ⟨w, .object ms, '\x7b' :: p, by rw [hs, hopen]; rfl, hw, .object hp, ?_⟩
    intro x hx
    cases hx
  split at h
  · next hopen =>
    obtain ⟨u, hu, hclose⟩ := enclosed_eq_ok.mp h
    obtain ⟨⟨⟨n, draft⟩, v⟩, hv, hu⟩ := bind_eq_ok.mp hu
    obtain ⟨-, rfl⟩ := Shape.finishPlaced_eq_ok.mp hu
    obtain ⟨ts, p, rfl, hp⟩ := parts_of_readPlaced hfields hv hclose
    refine ⟨w, .list ts, '[' :: p, by rw [hs, hopen]; rfl, hw, .list hp, ?_⟩
    intro x hx
    cases hx
  · cases h

theorem Reader.spelling_record {shape : Shape σ α} (h : ∀ f ∈ shape.fields, f.read.Spelling) :
    (Reader.record shape).Spelling := by
  intro s a r hr
  obtain ⟨w, t, u, hs, hw, hu, -⟩ := bracketed_record h hr
  exact ⟨w, t, u, hs, hw, hu⟩

/-! ## 4. All readers -/

/-- A property of readers that strings have and that every way to build on readers keeps. -/
structure Reader.Closed (P : ∀ {α : Type}, Reader α → Prop) : Prop where
  text : P Reader.text
  nullable : ∀ {α : Type} {value : Reader α}, P value → P (Reader.nullable value)
  map : ∀ {α β : Type} (f : α → β) {value : Reader α}, P value → P (value.map f)
  check : ∀ {α β : Type} (f : α → Except String β) {value : Reader α}, P value → P (value.check f)
  list : ∀ {α : Type} {value : Reader α}, P value → P (Reader.list value)
  entries : ∀ {α : Type} {value : Reader α}, P value → P (Reader.entries value)
  record : ∀ {σ α : Type} {shape : Shape σ α}, (∀ f ∈ shape.fields, P f.read) →
    P (Reader.record shape)

theorem Reader.closed_spelling : Reader.Closed Reader.Spelling where
  text := Reader.spelling_text
  nullable h := h.nullable
  map f _ h := h.map f
  check f _ h := h.check f
  list h := h.list
  entries h := h.entries
  record h := Reader.spelling_record h

end DialogueExport.Json
