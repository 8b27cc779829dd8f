import DialogueExport.Proofs.Export.FirstFailure
import DialogueExport.Proofs.LineTable.ByTag

/-!
# Which lines and files are reported as untagged

The entries that a table reports are those of the string table that are selected and have no line code
(`mem_untagged_table_iff`).  Entries without a line code are exported like any other, so each of them has
a row (`exists_row_of_mem_untagged`).

A run counts a file after its table is written.  So what has been counted at the end is what was counted
at the start and, of the files in turn, those whose tables report something (`exists_tables_exportFrom`):
a file in between that reports nothing leaves no trace, and one that is given twice is counted twice.
What is reported of single files is routine and names no list of files, so the advice at the end is the
only one.

Main statement: `untagged_reported`.
-/

namespace DialogueExport

/-! ## 1. Line codes -/

/-- The key is a line code: `line:` with something behind it. -/
def IsLineCode (key : String) : Prop := ∃ rest : String, rest ≠ "" ∧ key = "line:" ++ rest

theorem isLineCode_iff {key : String} :
    IsLineCode key ↔ KeyKind.mark <+: key.toList ∧ KeyKind.mark.length < key.toList.length := by
  constructor
  · rintro ⟨rest, hrest, rfl⟩
    have hkey : ("line:" ++ rest).toList = KeyKind.mark ++ rest.toList := String.toList_append
    have hpos : 0 < rest.toList.length :=
      List.length_pos_iff.mpr fun hnil => hrest (String.toList_eq_nil_iff.mp hnil)
    rw [hkey, List.length_append]
    exact ⟨List.prefix_append _ _, by omega⟩
  · rintro ⟨⟨rest, hrest⟩, hlen⟩
    refine ⟨String.ofList rest, ?_, ?_⟩
    · intro hnil
      rw [← hrest, String.ofList_eq_empty_iff.mp hnil, List.append_nil] at hlen
      exact Nat.lt_irrefl _ hlen
    · have hkey : ("line:" ++ String.ofList rest).toList = KeyKind.mark ++ rest := by
        simp [KeyKind.mark]
      exact String.toList_inj.mp (hrest.symm.trans hkey.symm)

theorem keyKind_eq_implicit_iff {key : String} : KeyKind.of key = .implicit ↔ ¬ IsLineCode key := by
  rw [isLineCode_iff, ← List.isPrefixOf_iff_prefix, KeyKind.of]
  split <;> simp_all

/-! ## 2. The entries of one table -/

namespace LineTable

variable {p : Program} {file : FilePath} {ledger : Ledger} {sel : Selection} {e : String × String}

theorem mem_untagged_table_iff :
    e ∈ (table p ledger sel).untagged ↔
      e ∈ p.strings.entries ∧ ¬ IsLineCode e.1 ∧ sel.admitsOwner p e.1 = true := by
  rw [untagged_table, Untagged.select, List.mem_filter, List.mem_filter, decide_eq_true_eq,
    keyKind_eq_implicit_iff]
  tauto

theorem untagged_table_sublist_entries : (table p ledger sel).untagged.Sublist p.strings.entries := by
  rw [untagged_table, Untagged.select]
  exact List.filter_sublist.trans List.filter_sublist

/-- A line without a line code is exported under its key. -/
theorem exists_row_of_mem_untagged (h : e ∈ (table p ledger sel).untagged) :
    ∃ r ∈ (table p ledger sel).rows, r.code = e.1 ∧ r.text = e.2 := by
  obtain ⟨hentry, -, howner⟩ := mem_untagged_table_iff.mp h
  have hget : p.strings.get? e.1 = some e.2 := Table.mem_entries_iff.mp hentry
  have hkey : e.1 ∈ p.strings.keys := Table.mem_keys_iff.mpr ⟨e.2, hget⟩
  obtain ⟨r, hr, hcode⟩ := exists_row_iff.mpr (Or.inl ⟨hkey, howner⟩)
  have htext : p.strings.get? r.code = some r.text := (text_of_mem_rows hr).1 (hcode ▸ hkey)
  rw [hcode, hget] at htext
  exact ⟨r, hr, hcode, (Option.some.inj htext).symm⟩

/-- The table reports the entries of the string table without a line code whose nodes pass, in the order
of the string table, and exports them. -/
structure ReportsUntagged (p : Program) (sel : Selection) (t : LineTable) : Prop where
  sublist : t.untagged.Sublist p.strings.entries
  mem_iff : ∀ e, e ∈ t.untagged ↔ e ∈ p.strings.entries ∧ ¬ IsLineCode e.1 ∧
    ∃ info n, p.lineInfo.get? e.1 = some info ∧ p.nodes.get? info.node = some n ∧ sel.Passes n
  exported : ∀ e ∈ t.untagged, ∃ r ∈ t.rows, r.code = e.1 ∧ r.text = e.2

theorem reportsUntagged_of_build {t : LineTable} (h : (build p file ledger sel).outcome = .ok t) :
    ReportsUntagged p sel t := by
  obtain ⟨-, rfl⟩ := build_eq_ok_iff.mp h
  constructor
  case sublist => exact untagged_table_sublist_entries
  case mem_iff =>
    intro e
    rw [mem_untagged_table_iff, Selection.admitsOwner_iff]
  case exported =>
    intro e he
    exact exists_row_of_mem_untagged he

end LineTable

/-! ## 3. The files of a run -/

namespace Export

variable {settings : Settings} {fs : FileSystem} {file : FilePath} {files : List FilePath}
  {t : LineTable} {tables : List LineTable} {done s : Summary}

/-- The tables of files.  Each file is loaded and scanned, and its table is built and written, from the
disk that the files before it have left. -/
inductive TablesInTurn (settings : Settings) : FileSystem → List FilePath → List LineTable → Prop
  | nil (fs : FileSystem) : TablesInTurn settings fs [] []
  | cons {fs mid : FileSystem} {file : FilePath} {files : List FilePath} {p : Program}
      {ledger : Ledger} {t : LineTable} {tables : List LineTable}
      (hp : fs.loadProgram file = .ok p)
      (hscan : (p.scan file settings.scan).outcome = .ok ledger)
      (ht : (LineTable.build p file ledger settings.selection).outcome = .ok t)
      (hw : fs.write file.outputFor (Csv.encodeText t.rows).toUTF8 = .ok mid)
      (hrest : TablesInTurn settings mid files tables) :
      TablesInTurn settings fs (file :: files) (t :: tables)

/-- The files whose tables report entries without a line code. -/
def flagged (files : List FilePath) (tables : List LineTable) : List FilePath :=
  ((files.zip tables).filter fun x => !x.2.untagged.isEmpty).map Prod.fst

theorem flagged_cons :
    flagged (file :: files) (t :: tables) =
      (if t.untagged.isEmpty then [] else [file]) ++ flagged files tables := by
  unfold flagged
  rw [List.zip_cons_cons, List.filter_cons]
  cases t.untagged.isEmpty <;> rfl

/-- There is one table for each file. -/
theorem TablesInTurn.length_eq (h : TablesInTurn settings fs files tables) :
    tables.length = files.length := by
  induction h with
  | nil => rfl
  | cons _ _ _ _ _ ih => rw [List.length_cons, List.length_cons, ih]

theorem TablesInTurn.flagged_sublist (h : TablesInTurn settings fs files tables) :
    (flagged files tables).Sublist files := by
  have hsome : (flagged files tables).Sublist ((files.zip tables).map Prod.fst) :=
    List.filter_sublist.map Prod.fst
  rwa [List.map_fst_zip (Nat.le_of_eq h.length_eq.symm)] at hsome

theorem files_record (tally : Untagged.Tally) (file : FilePath) (entries : List (String × String)) :
    (tally.record file entries).files = tally.files ++ if entries.isEmpty then [] else [file] := by
  rw [Untagged.Tally.record]
  split <;> simp

/-- A run that comes to its end has counted, of the files in turn, those that are flagged. -/
theorem exists_tables_exportFrom (h : (exportFrom settings fs done files).outcome = .ok s) :
    ∃ tables, TablesInTurn settings fs files tables ∧
      s.tally.files = done.tally.files ++ flagged files tables := by
  -- From file to file the disk changes, and so does what was counted so far.
  induction files generalizing fs done with
  | nil =>
    obtain rfl := Except.ok.inj h
    exact ⟨[], .nil fs, (List.append_nil _).symm⟩
  | cons file files ih =>
    obtain ⟨mid, path, t, hout, hrest⟩ := exists_of_exportFrom_cons h
    obtain ⟨p, hp, ht, hw, -⟩ := exportFile_eq_ok_iff.mp hout
    obtain ⟨ledger, hscan, hbuild⟩ := LineTable.ofProgram_eq_ok_iff.mp ht
    obtain ⟨tables, htables, hfiles⟩ := ih hrest
    refine ⟨t :: tables, .cons hp hscan hbuild hw htables, ?_⟩
    rw [hfiles, flagged_cons, ← List.append_assoc, Summary.record, files_record]

/-! ## 4. The advice after a run -/

/-- Whether an event is the advice about the files of a run. -/
def isAdvice : Event → Bool
  | .untaggedFiles _ => true
  | _ => false

theorem isAdvice_of_routine {ev : Event} (h : ev.Routine) : isAdvice ev = false := by
  cases ev <;> first | rfl | cases h

/-- The advice is given once or not at all, and about the files that were counted. -/
theorem filter_isAdvice_run (h : (run settings fs files).outcome = .ok s) :
    (run settings fs files).events.filter isAdvice =
      if s.tally.files = [] then [] else [.untaggedFiles s.tally.files] := by
  obtain ⟨before, hbefore, hevents⟩ := exists_routine_run settings fs files
  have hnone : before.filter isAdvice = [] :=
    List.filter_eq_nil_iff.mpr fun ev hev => by simp [isAdvice_of_routine (hbefore ev hev)]
  rw [hevents, h, List.filter_append, hnone, List.nil_append, closing, Untagged.Tally.events,
    Untagged.Tally.any]
  by_cases hfiles : s.tally.files = []
  · simp [hfiles]
  · simp [hfiles, isAdvice]

/-- **What is reported as untagged.**  A table reports the entries of the string table without a line code
whose nodes pass, no others, in the order of the string table and with their texts, and each has a row.
A run that comes to its end has counted the files whose tables report something, in the order in which
they were given and as often; it warns of them once, after all, by their names, and if there are none it
does not warn. -/
theorem untagged_reported :
    (∀ p file ledger sel t, (LineTable.build p file ledger sel).outcome = .ok t →
      LineTable.ReportsUntagged p sel t) ∧
    ∀ settings fs files s, (run settings fs files).outcome = .ok s →
      ∃ tables, TablesInTurn settings fs files tables ∧
        s.tally.files = flagged files tables ∧
        s.tally.files.Sublist files ∧
        ((run settings fs files).events.filter isAdvice =
          if s.tally.files = [] then [] else [.untaggedFiles s.tally.files]) ∧
        (Event.untaggedFiles s.tally.files).message =
          Event.recommendation ++ " " ++ ", ".intercalate (s.tally.files.map FilePath.text) := by
  constructor
  · intro p file ledger sel t h
    exact LineTable.reportsUntagged_of_build h
  · intro settings fs files s h
    obtain ⟨tables, htables, hfiles⟩ := @exists_tables_exportFrom settings fs files Summary.empty s h
    have hflagged : s.tally.files = flagged files tables := hfiles
    have hsublist : s.tally.files.Sublist files := hflagged ▸ htables.flagged_sublist
    exact ⟨tables, htables, hflagged, hsublist, filter_isAdvice_run h, rfl⟩

/-! A program with a line that has no line code, given twice and with a clean one in between. -/

namespace Example

/-- A program with one line, under its raw key. -/
def bayDocument : Document where
  nodes := [⟨"Bay", [], []⟩]
  strings := [("hail", "Ahoy!")]
  lineInfo := [("hail", ⟨"Bay"⟩)]

/-- A working directory with two programs, one of them empty. -/
def bight : FileSystem :=
  ⟨Table.ofEntries [([['w']], .directory),
    ([['w'], "quay.json".toList], .file "{}".toUTF8),
    ([['w'], "bay.json".toList], .file (String.ofList bayDocument.print).toUTF8)], [['w']]⟩

def calls : List FilePath := [⟨"bay.json"⟩, ⟨"quay.json"⟩, ⟨"./bay.json"⟩]

theorem untagged_reported_bight :
    LineTable.ReportsUntagged LineTable.Example.voyage ⟨some "act2"⟩ LineTable.Example.secondAct ∧
      ∃ s tables, (run {} bight calls).outcome = .ok s ∧ TablesInTurn {} bight calls tables ∧
        flagged calls tables = [⟨"bay.json"⟩, ⟨"./bay.json"⟩] ∧
        (run {} bight calls).events.filter isAdvice =
          [.untaggedFiles [⟨"bay.json"⟩, ⟨"./bay.json"⟩]] := by
  have hbuild : (LineTable.build LineTable.Example.voyage ⟨"story.json"⟩ LineTable.Example.deliveries
      ⟨some "act2"⟩).outcome = .ok LineTable.Example.secondAct := rfl
  have hcounted : (run {} bight calls).outcome.toOption.map (fun s => s.tally.files) =
      some [⟨"bay.json"⟩, ⟨"./bay.json"⟩] := by decide +kernel
  obtain ⟨s, hs, hfiles⟩ := Option.map_eq_some_iff.mp hcounted
  have hrun : (run {} bight calls).outcome = .ok s := toOption_eq_some_iff.mp hs
  obtain ⟨tables, htables, hflagged, -, hadvice, -⟩ := untagged_reported.2 {} bight calls s hrun
  refine ⟨untagged_reported.1 _ _ _ _ _ hbuild, s, tables, hrun, htables, hflagged ▸ hfiles, ?_⟩
  rw [hadvice, hfiles, if_neg (List.cons_ne_nil _ _)]

end Example

end Export

end DialogueExport
