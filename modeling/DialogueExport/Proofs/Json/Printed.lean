import DialogueExport.Json.Printer
import DialogueExport.Proofs.Json.Steps

/-!
# Reading back what was printed

`Reader.Takes value s a` says that a reader takes exactly `s` off the front of any text that goes on
with something else, and that it finds `a` there.  A printed value is taken whatever follows, since
a string ends with its quote and everything else with its bracket; so the judgement goes through all
the ways to build a reader, and none of these steps looks at what stands behind:

* `takes_text`, `Takes.nullable` and `Takes.check` for values without brackets of their own;
* `takes_list` and `takes_entries` for lists and tables, by induction on the parts;
* `takes_record` for records.  `Fills` says which draft the printed fields leave, field by field,
  and the reader comes to the same draft (`readNamed_of_fills`).

With nothing behind it the text is a document (`Takes.decode`).
-/

namespace DialogueExport.Json

variable {α β σ : Type}

/-! ## 1. The judgement -/

/-- The reader takes exactly this text and finds this value in it, whatever follows. -/
structure Reader.Takes (value : Reader α) (s : List Char) (a : α) : Prop where
  /-- It starts neither with white space nor with what closes a list. -/
  opens : ∃ c r, s = c :: r ∧ isSpace c = false ∧ c ≠ ']'
  run_append : ∀ rest, value.run (s ++ rest) = .ok (a, rest)

namespace Reader

theorem Takes.decode {value : Reader α} {s : List Char} {a : α} (h : value.Takes s a) :
    value.decode (String.ofList s) = .ok a := by
  refine decode_eq_ok_iff.mpr ⟨[], ?_, rfl⟩
  rw [String.toList_ofList]
  simpa using h.run_append []

theorem takes_text (t : String) : Reader.text.Takes (printString t) t where
  opens := ⟨'"', _, rfl, by decide, by decide⟩
  run_append rest := by
    have hread : readText (t.toList.flatMap printChar ++ '"' :: rest) = .ok (t.toList, rest) :=
      readText_printText t.toList rest
    have hs : skipSpace (printString t ++ rest) =
        '"' :: (t.toList.flatMap printChar ++ '"' :: rest) := by
      simp [printString, printText, skipSpace_cons (show isSpace '"' = false by decide)]
    rw [run_text, readString, hs]
    simp [hread, Except.map]

/-- A value that is there is not null, as null starts with an `n`. -/
theorem Takes.nullable {value : Reader α} {s : List Char} {a : α} (h : value.Takes s a)
    (hn : s.head? ≠ some 'n') : (Reader.nullable value).Takes s (some a) where
  opens := h.opens
  run_append rest := by
    obtain ⟨c, r, rfl, hc, -⟩ := h.opens
    have hcn : c ≠ 'n' := fun e => hn (by rw [e]; rfl)
    rw [run_nullable, readNullable, List.cons_append, skipSpace_cons hc]
    split
    · next heq => exact absurd (List.cons.inj heq).1 hcn
    · rw [← List.cons_append, h.run_append rest]
      rfl

theorem Takes.map {value : Reader α} {s : List Char} {a : α} (h : value.Takes s a) (f : α → β) :
    (value.map f).Takes s (f a) where
  opens := h.opens
  run_append rest := by
    rw [run_map, readMapped, h.run_append rest]
    rfl

theorem Takes.check {value : Reader α} {s : List Char} {a : α} {b : β} {f : α → Except String β}
    (h : value.Takes s a) (hf : f a = .ok b) : (value.check f).Takes s b where
  opens := h.opens
  run_append rest := readChecked_eq_ok.mpr ⟨a, h.run_append rest, hf⟩

end Reader

/-! ## 2. Parts of a bracket -/

/-- Parts as they stand behind an opening bracket or behind other parts. -/
def printFrom : Bool → List (List Char) → List Char
  | _, [] => []
  | first, p :: ps => separator first ++ p ++ printFrom false ps

theorem printParts_eq_printFrom : ∀ ps : List (List Char), printParts ps = printFrom true ps
  | [] => rfl
  | [p] => by simp [printParts, printFrom, separator]
  | p :: q :: ps => by
    rw [printParts, printParts_eq_printFrom (q :: ps)]
    simp [printFrom, separator]

/-! There is no white space in between. -/

theorem nextElement_separator {c : Char} (hspace : isSpace c = false) (hclose : c ≠ ']')
    (first : Bool) (r : List Char) :
    nextElement first (separator first ++ c :: r) = .ok (some (c :: r)) :=
  nextElement_of_cons gap_nil gap_nil hspace hclose first r

theorem nextKey_separator (first : Bool) (r : List Char) :
    nextKey first (separator first ++ '"' :: r) = .ok (some r) :=
  nextKey_of_cons gap_nil gap_nil first r

theorem readColon_cons (r : List Char) : readColon (':' :: r) = .ok r := readColon_gap gap_nil r

/-! ## 3. Lists and tables -/

theorem readElements_printFrom {value : Reader α} {print : α → List Char} (rest : List Char) :
    ∀ (es : List α) (first : Bool), (∀ e ∈ es, value.Takes (print e) e) →
      readElements value first (printFrom first (es.map print) ++ ']' :: rest) =
        .ok (es, ']' :: rest)
  | [], first, _ => readElements_of_end (nextElement_of_close first gap_nil rest)
  | e :: es, first, h => by
    have ih := readElements_printFrom rest es false fun x hx => h x (List.mem_cons_of_mem _ hx)
    have he : value.Takes (print e) e := h e List.mem_cons_self
    obtain ⟨c, r, hcr, hspace, hclose⟩ := he.opens
    have hrun := he.run_append (printFrom false (es.map print) ++ ']' :: rest)
    have hnext := nextElement_separator hspace hclose first
      (r ++ (printFrom false (es.map print) ++ ']' :: rest))
    rw [← List.cons_append, ← hcr] at hnext
    rw [List.map_cons, printFrom, List.append_assoc, List.append_assoc,
      readElements_of_next hnext hrun, ih]
    rfl

/-- A printed list is read back if its elements are. -/
theorem takes_list {value : Reader α} {print : α → List Char} {es : List α}
    (h : ∀ e ∈ es, value.Takes (print e) e) :
    (Reader.list value).Takes (printList (es.map print)) es where
  opens := ⟨'[', _, rfl, by decide, by decide⟩
  run_append rest := by
    have hread := readElements_printFrom rest es true h
    rw [Reader.run_list, readList, printList, printParts_eq_printFrom, List.cons_append,
      List.cons_append, skipSpace_cons (by decide), List.append_assoc]
    exact enclosed_eq_ok.mpr ⟨']' :: rest, hread, closeList_gap gap_nil rest⟩

/-- How an entry of an object is printed. -/
def printEntry (e : String × List Char) : List Char := printText e.1.toList ++ ':' :: e.2

/-- Behind what separates it, an entry is its key, a colon and its value. -/
theorem printFrom_entry (first : Bool) (key : String) (s : List Char)
    (entries : List (String × List Char)) (rest : List Char) :
    printFrom first (((key, s) :: entries).map printEntry) ++ rest =
      separator first ++ '"' :: (key.toList.flatMap printChar ++
        '"' :: ':' :: (s ++ (printFrom false (entries.map printEntry) ++ rest))) := by
  simp [printFrom, printEntry, printText]

theorem readEntries_printFrom {value : Reader α} {print : α → List Char} (rest : List Char) :
    ∀ (es : List (String × α)) (first : Bool), (∀ e ∈ es, value.Takes (print e.2) e.2) →
      readEntries value first
        (printFrom first ((es.map fun e => (e.1, print e.2)).map printEntry) ++ '\x7d' :: rest) =
        .ok (es, '\x7d' :: rest)
  | [], first, _ => readEntries_of_end (nextKey_of_close first gap_nil rest)
  | (key, a) :: es, first, h => by
    have ih := readEntries_printFrom rest es false fun x hx => h x (List.mem_cons_of_mem _ hx)
    have ha : value.Takes (print a) a := h (key, a) List.mem_cons_self
    rw [List.map_cons, printFrom_entry,
      readEntries_of_next (nextKey_separator first _) (readText_printText key.toList _)
        (readColon_cons _) (ha.run_append _), ih, String.ofList_toList]
    rfl

/-- A printed table is read back if its values are. -/
theorem takes_entries {value : Reader α} {print : α → List Char} {es : List (String × α)}
    (h : ∀ e ∈ es, value.Takes (print e.2) e.2) :
    (Reader.entries value).Takes (printObject (es.map fun e => (e.1, print e.2))) es where
  opens := ⟨'\x7b', _, rfl, by decide, by decide⟩
  run_append rest := by
    have hread := readEntries_printFrom rest es true h
    rw [Reader.run_entries, readObject, printObject, printParts_eq_printFrom, List.cons_append,
      List.cons_append, skipSpace_cons (by decide), List.append_assoc]
    exact enclosed_eq_ok.mpr ⟨'\x7d' :: rest, hread, closeObject_gap gap_nil rest⟩

/-! ## 4. Records -/

/-- Reading these fields one after the other takes the first draft to the last.  Each of them is a
field of the type that the draft lacks so far. -/
inductive Fills (fields : List (RecordField σ)) : σ → List (String × List Char) → σ → Prop
  | nil (draft : σ) : Fills fields draft [] draft
  | cons {draft last : σ} {name : String} {s : List Char} {entries : List (String × List Char)}
      {field : RecordField σ} {write : σ → σ}
      (find : fields.find? (fun f => f.name = name) = some field)
      (isSet : field.isSet draft = false) (takes : field.read.Takes s write)
      (tail : Fills fields (write draft) entries last) :
      Fills fields draft ((name, s) :: entries) last

theorem readNamed_of_fills {fields : List (RecordField σ)} {draft last : σ}
    {entries : List (String × List Char)} (h : Fills fields draft entries last) (first : Bool)
    (rest : List Char) :
    readNamed fields first draft (printFrom first (entries.map printEntry) ++ '\x7d' :: rest) =
      .ok (last, '\x7d' :: rest) := by
  induction h generalizing first with
  | nil draft => exact readNamed_of_end (nextKey_of_close first gap_nil rest)
  | @cons draft last name s entries field write find isSet takes tail ih =>
    rw [← String.ofList_toList (s := name)] at find
    rw [printFrom_entry, readNamed_of_field (nextKey_separator first _)
      (readText_printText name.toList _) find isSet (readColon_cons _) (takes.run_append _)]
    exact ih false

/-- A record is read back from an object whose fields fill a draft of it. -/
theorem takes_record {shape : Shape σ α} {entries : List (String × List Char)} {draft : σ} {a : α}
    (h : Fills shape.fields shape.start entries draft) (hf : shape.finish draft = .ok a) :
    (Reader.record shape).Takes (printObject entries) a where
  opens := ⟨'\x7b', _, rfl, by decide, by decide⟩
  run_append rest := by
    have hread : shape.readByName (printFrom true (entries.map printEntry) ++ '\x7d' :: rest) =
        .ok (a, '\x7d' :: rest) := by
      refine bind_eq_ok.mpr ⟨(draft, '\x7d' :: rest), readNamed_of_fills h true rest, ?_⟩
      exact Shape.finishNamed_eq_ok.mpr ⟨hf, rfl⟩
    rw [Reader.run_record, Shape.read, printObject, printParts_eq_printFrom, List.cons_append,
      List.cons_append, skipSpace_cons (by decide), List.append_assoc]
    exact enclosed_eq_ok.mpr ⟨'\x7d' :: rest, hread, closeObject_gap gap_nil rest⟩

end DialogueExport.Json
