import DialogueExport.Csv

/-!
# Reading a table back

A reader of comma-separated values that knows nothing of how a table was written.  It goes over the
characters once and stands in one of five places (`Place`): between two records, at the start of a
field, in a field without quotes, in quotes, or behind a quote that ends a field unless another one
follows.  It ends a record at a carriage return or at a line feed, so an empty line is no record.

What carries the proof is where the reader stands at the borders.  A field leads from its start to
its end (`run_encodeField`), whether it is quoted or not; the comma behind it leads to the start of
the next one and the end of the line between two records (`run_encodeFields`).  Between two records
line ends are skipped, so there the first field has to begin with something else
(`ne_of_head?_encodeField`); that is why a line needs two fields (`run_encodeLine`).

Main statement: `read_encodeText`.
-/

namespace DialogueExport.Csv

/-! ## 1. The reader -/

/-- Where a reader stands. -/
inductive Place where
  | outside
  | fieldStart
  | unquoted
  | quoted
  | quoteSeen
deriving DecidableEq

/-- What a reader has read. -/
structure Reading where
  place : Place
  /-- The field so far. -/
  field : List Char
  /-- The fields of the record before this one. -/
  record : List String
  /-- The records before this one. -/
  records : List (List String)
deriving DecidableEq

namespace Reading

def start : Reading := ⟨.outside, [], [], []⟩

/-- A character of the field. -/
def push (r : Reading) (place : Place) (c : Char) : Reading :=
  ⟨place, r.field ++ [c], r.record, r.records⟩

def endField (r : Reading) : Reading :=
  ⟨.fieldStart, [], r.record ++ [String.ofList r.field], r.records⟩

def endRecord (r : Reading) : Reading :=
  ⟨.outside, [], [], r.records ++ [r.record ++ [String.ofList r.field]]⟩

/-- A character that is not in quotes and does not open them. -/
def plain (r : Reading) (c : Char) : Reading :=
  if c = ',' then r.endField
  else if c = '\r' ∨ c = '\n' then r.endRecord
  else r.push .unquoted c

/-- The first character of a field or what ends an empty one. -/
def first (r : Reading) (c : Char) : Reading :=
  if c = '"' then { r with place := .quoted } else r.plain c

/-- Reads a character. -/
def step (r : Reading) (c : Char) : Reading :=
  match r.place with
  | .outside => if c = '\r' ∨ c = '\n' then r else r.first c
  | .fieldStart => r.first c
  | .unquoted => r.plain c
  | .quoted => if c = '"' then { r with place := .quoteSeen } else r.push .quoted c
  | .quoteSeen => if c = '"' then r.push .quoted c else r.plain c

/-- Reads characters one after the other. -/
def run (r : Reading) (cs : List Char) : Reading := cs.foldl step r

/-- The records at the end of the text, which ends a record that was begun. -/
def finish (r : Reading) : List (List String) :=
  if r.place = .outside then r.records else r.endRecord.records

@[simp] theorem run_nil (r : Reading) : r.run [] = r := rfl

@[simp] theorem run_cons (r : Reading) (c : Char) (cs : List Char) :
    r.run (c :: cs) = (r.step c).run cs := rfl

@[simp] theorem run_append (r : Reading) (cs ds : List Char) :
    r.run (cs ++ ds) = (r.run cs).run ds := List.foldl_append

end Reading

/-- The records of a text. -/
def read (text : String) : List (List String) := (Reading.start.run text.toList).finish

/-! ## 2. Fields -/

theorem needsQuotes_eq_false_iff {c : Char} :
    needsQuotes c = false ↔ c ≠ ',' ∧ c ≠ '"' ∧ c ≠ '\r' ∧ c ≠ '\n' := by
  simp [needsQuotes, and_assoc]

/-- A field does not begin with the end of a line: where it holds one it begins with a quote. -/
theorem ne_of_head?_encodeField {s : List Char} {c : Char}
    (h : (encodeField s ++ [',']).head? = some c) : c ≠ '\r' ∧ c ≠ '\n' := by
  unfold encodeField at h
  split at h
  · obtain rfl : '"' = c := Option.some.inj h
    decide
  · next hs =>
    cases s with
    | nil =>
      obtain rfl : ',' = c := Option.some.inj h
      decide
    | cons a s =>
      obtain rfl : a = c := Option.some.inj h
      have ha : needsQuotes a = false := by
        rw [List.any_cons, Bool.or_eq_true, not_or, Bool.not_eq_true] at hs
        exact hs.1
      exact (needsQuotes_eq_false_iff.mp ha).2.2

namespace Reading

variable {field : List Char} {record : List String} {records : List (List String)}

theorem plain_of_not_needsQuotes {c : Char} (h : needsQuotes c = false) (r : Reading) :
    r.plain c = r.push .unquoted c := by
  obtain ⟨hcomma, -, hcr, hlf⟩ := needsQuotes_eq_false_iff.mp h
  rw [plain, if_neg hcomma, if_neg (not_or.mpr ⟨hcr, hlf⟩)]

theorem first_of_not_needsQuotes {c : Char} (h : needsQuotes c = false) (r : Reading) :
    r.first c = r.push .unquoted c := by
  rw [first, if_neg (needsQuotes_eq_false_iff.mp h).2.1, plain_of_not_needsQuotes h]

/-- Characters that need no quotes stand for themselves. -/
theorem run_unquoted {s : List Char} (h : s.any needsQuotes = false) :
    (⟨.unquoted, field, record, records⟩ : Reading).run s =
      ⟨.unquoted, field ++ s, record, records⟩ := by
  induction s generalizing field with
  | nil => simp
  | cons c s ih =>
    rw [List.any_cons, Bool.or_eq_false_iff] at h
    have hstep : (⟨.unquoted, field, record, records⟩ : Reading).step c =
        ⟨.unquoted, field ++ [c], record, records⟩ := plain_of_not_needsQuotes h.1 _
    rw [run_cons, hstep, ih h.2, List.append_assoc, List.singleton_append]

/-- In quotes all characters stand for themselves, and a quote that is written twice for one. -/
theorem run_doubleQuotes (s : List Char) :
    (⟨.quoted, field, record, records⟩ : Reading).run (doubleQuotes s) =
      ⟨.quoted, field ++ s, record, records⟩ := by
  induction s generalizing field with
  | nil => simp [doubleQuotes]
  | cons c s ih =>
    rw [doubleQuotes]
    split
    · next hc =>
      subst hc
      have hstep : ((⟨.quoted, field, record, records⟩ : Reading).step '"').step '"' =
          ⟨.quoted, field ++ ['"'], record, records⟩ := rfl
      rw [run_cons, run_cons, hstep, ih, List.append_assoc, List.singleton_append]
    · next hc =>
      have hstep : (⟨.quoted, field, record, records⟩ : Reading).step c =
          ⟨.quoted, field ++ [c], record, records⟩ := if_neg hc
      rw [run_cons, hstep, ih, List.append_assoc, List.singleton_append]

/-- A field is read up to the comma or the carriage return behind it. -/
theorem run_encodeField (s : List Char) {c : Char} (hc : c = ',' ∨ c = '\r') :
    (⟨.fieldStart, [], record, records⟩ : Reading).run (encodeField s ++ [c]) =
      (⟨.unquoted, s, record, records⟩ : Reading).plain c := by
  unfold encodeField
  split
  · have hopen : (⟨.fieldStart, [], record, records⟩ : Reading).step '"' =
        ⟨.quoted, [], record, records⟩ := rfl
    have hclose : (⟨.quoted, s, record, records⟩ : Reading).step '"' =
        ⟨.quoteSeen, s, record, records⟩ := rfl
    rw [List.cons_append, List.cons_append, run_cons, hopen, run_append, run_append,
      run_doubleQuotes, List.nil_append, run_cons, run_nil, run_cons, run_nil, hclose]
    rcases hc with rfl | rfl <;> rfl
  · next hs =>
    rw [Bool.not_eq_true] at hs
    cases s with
    | nil => rcases hc with rfl | rfl <;> rfl
    | cons a s =>
      rw [List.any_cons, Bool.or_eq_false_iff] at hs
      have hstep : (⟨.fieldStart, [], record, records⟩ : Reading).step a =
          ⟨.unquoted, [a], record, records⟩ := first_of_not_needsQuotes hs.1 _
      rw [List.cons_append, run_cons, hstep, run_append, run_unquoted hs.2]
      rfl

/-! ## 3. Lines -/

/-- A comma leads to the next field. -/
theorem encodeFields_cons_cons (f g : List Char) (fs : List (List Char)) :
    encodeFields (f :: g :: fs) ++ lineEnd =
      (encodeField f ++ [',']) ++ (encodeFields (g :: fs) ++ lineEnd) := by
  simp [encodeFields]

/-- Fields up to the end of their line are a record. -/
theorem run_encodeFields : ∀ {fs : List (List Char)} {record : List String}, fs ≠ [] →
    (⟨.fieldStart, [], record, records⟩ : Reading).run (encodeFields fs ++ lineEnd) =
      ⟨.outside, [], [], records ++ [record ++ fs.map String.ofList]⟩
  | [], _, h => absurd rfl h
  | [f], record, _ => by
    have hsplit : encodeFields [f] ++ lineEnd = (encodeField f ++ ['\r']) ++ ['\n'] := by
      simp [encodeFields, lineEnd]
    rw [hsplit, run_append, run_encodeField f (Or.inr rfl)]
    rfl
  | f :: g :: fs, record, _ => by
    have hnext : (⟨.unquoted, f, record, records⟩ : Reading).plain ',' =
        ⟨.fieldStart, [], record ++ [String.ofList f], records⟩ := rfl
    rw [encodeFields_cons_cons, run_append, run_encodeField f (Or.inl rfl), hnext,
      run_encodeFields (List.cons_ne_nil g fs)]
    simp

/-- Between two records a field starts, unless a line ends. -/
theorem run_outside {cs : List Char} (hne : cs ≠ [])
    (h : ∀ c, cs.head? = some c → c ≠ '\r' ∧ c ≠ '\n') :
    (⟨.outside, [], [], records⟩ : Reading).run cs =
      (⟨.fieldStart, [], [], records⟩ : Reading).run cs := by
  obtain ⟨c, cs, rfl⟩ := List.exists_cons_of_ne_nil hne
  have hc : ¬ (c = '\r' ∨ c = '\n') := not_or.mpr (h c rfl)
  have hstep : (⟨.outside, [], [], records⟩ : Reading).step c =
      (⟨.fieldStart, [], [], records⟩ : Reading).step c := by
    rw [step, if_neg hc]
    rfl
  rw [run_cons, run_cons, hstep]

/-- A line of two fields or more is a record. -/
theorem run_encodeLine : ∀ {line : List String}, 2 ≤ line.length →
    (⟨.outside, [], [], records⟩ : Reading).run (encodeLine line) =
      ⟨.outside, [], [], records ++ [line]⟩
  | a :: b :: line, _ => by
    have hne : encodeField a.toList ++ [','] ≠ [] := by simp
    rw [encodeLine, List.map_cons, List.map_cons, encodeFields_cons_cons, run_append,
      run_outside hne fun _ => ne_of_head?_encodeField, ← run_append, ← encodeFields_cons_cons,
      run_encodeFields (List.cons_ne_nil _ _)]
    simp

theorem run_encodeLines {lines : List (List String)} (h : ∀ line ∈ lines, 2 ≤ line.length) :
    (⟨.outside, [], [], records⟩ : Reading).run (lines.flatMap encodeLine) =
      ⟨.outside, [], [], records ++ lines⟩ := by
  induction lines generalizing records with
  | nil => simp
  | cons line lines ih =>
    rw [List.flatMap_cons, run_append, run_encodeLine (h line List.mem_cons_self),
      ih fun l hl => h l (List.mem_cons_of_mem line hl), List.append_assoc, List.singleton_append]

end Reading

/-! ## 4. Tables -/

/-- **Lines.**  Lines of two fields or more are read as they were written. -/
theorem read_encodeLines {lines : List (List String)} (h : ∀ line ∈ lines, 2 ≤ line.length) :
    read (String.ofList (lines.flatMap encodeLine)) = lines := by
  rw [read, String.toList_ofList, Reading.start, Reading.run_encodeLines h, List.nil_append]
  rfl

theorem length_of_mem_lines {rows : List Row} {line : List String}
    (h : line ∈ Wire.columns :: rows.map fields) : line.length = 4 := by
  rcases List.mem_cons.mp h with rfl | h
  · rfl
  · obtain ⟨r, -, rfl⟩ := List.mem_map.mp h
    rfl

theorem fromUTF8?_toUTF8 (text : String) : String.fromUTF8? text.toUTF8 = some text :=
  dif_pos text.isValidUTF8

/-- **Reading a table back.**  The bytes of a table are read as its header and its rows, in their
order, whatever stands in them, and every record has four fields. -/
theorem read_encodeText (rows : List Row) :
    ∃ text, String.fromUTF8? (encodeText rows).toUTF8 = some text ∧
      read text = ["LineCode", "LineText", "Character", "Comment"] ::
        rows.map (fun r => [r.code, r.text, r.character, r.comment]) ∧
      ∀ line ∈ read text, line.length = 4 := by
  have hread : read (encodeText rows) = Wire.columns :: rows.map fields := by
    refine read_encodeLines fun line hline => ?_
    rw [length_of_mem_lines hline]
    decide
  refine ⟨encodeText rows, fromUTF8?_toUTF8 _, hread, fun line hline => ?_⟩
  rw [hread] at hline
  exact length_of_mem_lines hline

/-! A quoted field with a quote, a comma and a line end in it, an empty line, and a record of empty
fields. -/

example : read "a,\"b\"\"c,\r\n\"\r\n\r\n,\n" = [["a", "b\"c,\r\n"], ["", ""]] := by decide

end DialogueExport.Csv
