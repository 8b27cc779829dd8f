import DialogueExport.Proofs.Export.OneFile
import DialogueExport.Proofs.FileSystem.Places
import DialogueExport.Proofs.LineTable.Rows
import DialogueExport.Proofs.Scan.Deliveries

/-!
# Files of a run do not depend on each other

A run writes tables while later inputs are still unread.  But the place of a table is the place of no
input, and two inputs with tables in one place are one file (`Exports.unique`), so whatever a run has
written, the inputs that are left are read as they were at the start (`exports_iff`).
`Tabulated` says what a disk is after a run: the table of each file is in its place, made of what the file
held at the start, and nothing else has changed.  Exporting one file does this, and runs in a row add up
(`Tabulated.append`); since there is at most one such disk (`Tabulated.sameContent`), the order of the
files makes no difference.

Main statement: `run_isolated`.
-/

namespace DialogueExport

open FilePath (outputSuffix)

variable {fs fs' : FileSystem} {file other : FilePath} {place : Location} {content : ByteArray}

/-! ## 1. What inputs depend on -/

namespace FileSystem

/-- The place has the name of a table. -/
def IsTablePlace (place : Location) : Prop :=
  ∃ (dir : Location) (stem : List Char), place = dir ++ [stem ++ outputSuffix]

/-- Nothing has changed but tables, and paths lead where they have led. -/
structure OnlyTables (fs fs' : FileSystem) : Prop extends SameDirectories fs fs' where
  find?_eq : ∀ place, ¬ IsTablePlace place → fs'.find? place = fs.find? place

theorem isTablePlace_outputFor {extension : List Char} (h : file.extension? = some extension) :
    IsTablePlace (fs.placeOf file.outputFor) := by
  obtain ⟨dir, -, hout⟩ := @exists_placeOf_eq fs file extension h
  exact ⟨dir, file.stem, hout⟩

/-- No table is where an input is. -/
theorem not_isTablePlace (h : file.extension? = some programExtension) :
    ¬ IsTablePlace (fs.placeOf file) := by
  obtain ⟨dir, hplace, -⟩ := @exists_placeOf_eq fs file _ h
  rintro ⟨dir', stem, htable⟩
  rw [hplace] at htable
  have hname := (List.append_inj' htable rfl).2
  exact FilePath.outputName_ne stem file.stem (List.singleton_inj.mp hname).symm

/-- Inputs with tables in one place are in one place. -/
theorem placeOf_eq_of_outputFor (hfile : file.extension? = some programExtension)
    (hother : other.extension? = some programExtension)
    (h : fs.placeOf file.outputFor = fs.placeOf other.outputFor) :
    fs.placeOf file = fs.placeOf other := by
  obtain ⟨dir, hplace, hout⟩ := @exists_placeOf_eq fs file _ hfile
  obtain ⟨dir', hplace', hout'⟩ := @exists_placeOf_eq fs other _ hother
  rw [hout, hout'] at h
  obtain ⟨rfl, hname⟩ := List.append_inj' h rfl
  have hstem : file.stem = other.stem := List.append_cancel_right (List.singleton_inj.mp hname)
  rw [hplace, hplace', hstem]

namespace OnlyTables

/-- What an input holds does not depend on tables. -/
theorem read_eq_ok_iff (h : OnlyTables fs fs') (hfile : file.extension? = some programExtension) :
    fs'.read file = .ok content ↔ fs.read file = .ok content := by
  rw [FileSystem.read_eq_ok_iff, FileSystem.read_eq_ok_iff, h.placeOf_eq, h.locate_eq_ok_iff,
    h.find?_eq _ (not_isTablePlace hfile)]

theorem inputFault?_eq_none (h : OnlyTables fs fs') (hfile : fs.inputFault? file = none) :
    fs'.inputFault? file = none := by
  obtain ⟨hthere, hext⟩ := inputFault?_eq_none_iff.mp hfile
  obtain ⟨content, hread⟩ := isFile_iff.mp hthere
  exact inputFault?_eq_none_iff.mpr ⟨isFile_iff.mpr ⟨content, (h.read_eq_ok_iff hext).mpr hread⟩, hext⟩

end OnlyTables

theorem loadProgram_eq_ok_iff {p : Program} :
    fs.loadProgram file = .ok p ↔ ∃ content text, fs.read file = .ok content ∧
      String.fromUTF8? content = some text ∧ Program.load text = .ok p := by
  have htext : ∀ text, fs.readText file = .ok text ↔
      ∃ content, fs.read file = .ok content ∧ String.fromUTF8? content = some text := by
    intro text
    rw [readText, bind_eq_ok]
    refine exists_congr fun content => and_congr_right fun _ => ?_
    split
    · next h => simp [h]
    · next h => simp [h]
  have hload : fs.loadProgram file = .ok p ↔
      ∃ text, fs.readText file = .ok text ∧ Program.load text = .ok p := by
    unfold loadProgram
    cases fs.readText file with
    | error fault => simp
    | ok text => cases hp : Program.load text <;> simp [hp]
  simp only [hload, htext]
  constructor
  · rintro ⟨text, ⟨content, hread, htext⟩, hp⟩
    exact ⟨content, text, hread, htext, hp⟩
  · rintro ⟨content, text, hread, htext, hp⟩
    exact ⟨text, ⟨content, hread, htext⟩, hp⟩

end FileSystem

namespace Export

open FileSystem

variable {settings : Settings} {content' : ByteArray} {files files' : List FilePath} {disk : FileSystem}

/-! ## 2. The table of a file -/

/-- The file is a program whose table can be written beside it, and this is the table as it is
written. -/
def Exports (settings : Settings) (fs : FileSystem) (file : FilePath) (content : ByteArray) : Prop :=
  ∃ p t, fs.loadProgram file = .ok p ∧
    (LineTable.ofProgram p file settings.selection settings.scan).outcome = .ok t ∧
    content = (Csv.encodeText t.rows).toUTF8 ∧ ∃ fs', fs.write file.outputFor content = .ok fs'

theorem exportFile_eq_ok_iff_exports {path : FilePath} :
    (∃ t, (exportFile settings fs file).outcome = .ok (fs', path, t)) ↔
      ∃ content, Exports settings fs file content ∧ fs.write file.outputFor content = .ok fs' ∧
        path = file.outputFor := by
  simp only [exportFile_eq_ok_iff, Exports]
  constructor
  · rintro ⟨t, p, hp, ht, hw, rfl⟩
    exact ⟨_, ⟨p, t, hp, ht, rfl, fs', hw⟩, hw, rfl⟩
  · rintro ⟨_, ⟨p, t, hp, ht, rfl, -⟩, hw, rfl⟩
    exact ⟨t, p, hp, ht, hw, rfl⟩

/-- What a table that is made holds, its file only names. -/
theorem eq_table_of_ofProgram {p : Program} {sel : Selection} {scan : ScanSettings} {t : LineTable}
    (h : (LineTable.ofProgram p file sel scan).outcome = .ok t) :
    t = LineTable.table p (Ledger.empty.addAll (p.deliveries scan)) sel := by
  obtain ⟨ledger, hscan, hbuild⟩ := LineTable.ofProgram_eq_ok_iff.mp h
  obtain rfl := Scan.eq_addAll_of_scan hscan
  exact (LineTable.build_eq_ok_iff.mp hbuild).2

/-- Inputs with tables in one place have the same table. -/
theorem Exports.unique (hfile : file.extension? = some programExtension)
    (hother : other.extension? = some programExtension)
    (h : Exports settings fs file content) (h' : Exports settings fs other content')
    (hplace : fs.placeOf file.outputFor = fs.placeOf other.outputFor) : content = content' := by
  obtain ⟨p, t, hp, ht, rfl, -⟩ := h
  obtain ⟨p', t', hp', ht', rfl, -⟩ := h'
  obtain ⟨c, text, hread, htext, hload⟩ := loadProgram_eq_ok_iff.mp hp
  obtain ⟨c', text', hread', htext', hload'⟩ := loadProgram_eq_ok_iff.mp hp'
  have hc : c = c' := by
    have hf := (read_eq_ok_iff.mp hread).2
    rw [placeOf_eq_of_outputFor hfile hother hplace, (read_eq_ok_iff.mp hread').2] at hf
    exact (Entry.file.inj (Option.some.inj hf)).symm
  subst hc
  obtain rfl : text = text' := Option.some.inj (htext.symm.trans htext')
  obtain rfl : p = p' := Except.ok.inj (hload.symm.trans hload')
  rw [eq_table_of_ofProgram ht, eq_table_of_ofProgram ht']

/-- The table of an input does not depend on tables that were written before. -/
theorem exports_iff (h : OnlyTables fs fs') (hfile : file.extension? = some programExtension) :
    Exports settings fs' file content ↔ Exports settings fs file content := by
  have hwrite : (∃ disk, fs'.write file.outputFor content = .ok disk) ↔
      ∃ disk, fs.write file.outputFor content = .ok disk := by
    simp only [write_eq_ok_iff, h.placeOf_eq, h.locate_eq_ok_iff, ne_eq, h.directory_iff,
      exists_and_left, exists_eq]
  simp only [Exports, loadProgram_eq_ok_iff, h.read_eq_ok_iff hfile, hwrite]

/-! ## 3. The disk after a run -/

/-- The tables of the files are in their places, made of what the files held at the start, and nothing
else has changed. -/
structure Tabulated (settings : Settings) (fs : FileSystem) (files : List FilePath)
    (disk : FileSystem) : Prop where
  workingDirectory : disk.workingDirectory = fs.workingDirectory
  table : ∀ file ∈ files, ∃ content, Exports settings fs file content ∧
    disk.read file.outputFor = .ok content
  rest : ∀ place, (∀ file ∈ files, fs.locate file.outputFor ≠ .ok place) →
    disk.find? place = fs.find? place

/-- The same things are in the same places. -/
structure SameContent (fs fs' : FileSystem) : Prop where
  workingDirectory : fs'.workingDirectory = fs.workingDirectory
  find?_eq : ∀ place, fs'.find? place = fs.find? place

theorem Exports.locate (h : Exports settings fs file content) :
    fs.locate file.outputFor = .ok (fs.placeOf file.outputFor) := by
  obtain ⟨p, t, -, -, -, fs', hw⟩ := h
  exact (write_eq_ok_iff.mp hw).1

theorem Exports.find?_ne (h : Exports settings fs file content) :
    fs.find? (fs.placeOf file.outputFor) ≠ some .directory := by
  obtain ⟨p, t, -, -, -, fs', hw⟩ := h
  exact (write_eq_ok_iff.mp hw).2.1

namespace Tabulated

variable (hext : ∀ file ∈ files, file.extension? = some programExtension)

theorem placeOf_eq (h : Tabulated settings fs files disk) (p : FilePath) :
    disk.placeOf p = fs.placeOf p := by
  rw [placeOf, placeOf, h.workingDirectory]

/-- A place is the place of a table or it is as it was. -/
theorem exists_or_find?_eq (h : Tabulated settings fs files disk) (place : Location) :
    (∃ file ∈ files, ∃ content, Exports settings fs file content ∧
      fs.placeOf file.outputFor = place ∧ disk.find? place = some (.file content)) ∨
      disk.find? place = fs.find? place := by
  by_cases hp : ∃ file ∈ files, fs.locate file.outputFor = .ok place
  · obtain ⟨file, hfile, hl⟩ := hp
    obtain rfl := placeOf_eq_of_locate hl
    obtain ⟨content, hc, hread⟩ := h.table file hfile
    rw [read_eq_ok_iff, h.placeOf_eq] at hread
    exact Or.inl ⟨file, hfile, content, hc, rfl, hread.2⟩
  · refine Or.inr (h.rest place fun file hfile hl => hp ⟨file, hfile, hl⟩)

include hext in
theorem onlyTables (h : Tabulated settings fs files disk) : OnlyTables fs disk where
  workingDirectory := h.workingDirectory
  directory_iff := by
    intro place
    rcases h.exists_or_find?_eq place with ⟨file, -, content, hc, rfl, hf⟩ | hf
    · rw [hf]
      simp [hc.find?_ne]
    · rw [hf]
  find?_eq := by
    intro place hplace
    rcases h.exists_or_find?_eq place with ⟨file, hfile, content, -, rfl, -⟩ | hf
    · exact absurd (isTablePlace_outputFor (hext file hfile)) hplace
    · exact hf

include hext in
/-- Every file has its table, also if others have theirs in the same place. -/
theorem find?_eq (h : Tabulated settings fs files disk) (hfile : file ∈ files)
    (hc : Exports settings fs file content) :
    disk.find? (fs.placeOf file.outputFor) = some (.file content) := by
  obtain ⟨content', hc', hread⟩ := h.table file hfile
  obtain rfl := hc.unique (hext file hfile) (hext file hfile) hc' rfl
  rw [read_eq_ok_iff, h.placeOf_eq] at hread
  exact hread.2

include hext in
/-- There is only one such disk, in whichever order the files are. -/
theorem sameContent (h : Tabulated settings fs files disk) {disk' : FileSystem}
    (h' : Tabulated settings fs files' disk') (hmem : ∀ file, file ∈ files' ↔ file ∈ files) :
    SameContent disk disk' where
  workingDirectory := h'.workingDirectory.trans h.workingDirectory.symm
  find?_eq := by
    have hext' : ∀ file ∈ files', file.extension? = some programExtension :=
      fun file hfile => hext file ((hmem file).mp hfile)
    intro place
    rcases h.exists_or_find?_eq place with ⟨file, hfile, content, hc, rfl, hf⟩ | hf
    · rw [hf, h'.find?_eq hext' ((hmem file).mpr hfile) hc]
    · rcases h'.exists_or_find?_eq place with ⟨file, hfile, content, hc, rfl, hf'⟩ | hf'
      · rw [hf', h.find?_eq hext ((hmem file).mp hfile) hc]
      · rw [hf, hf']

theorem nil : Tabulated settings fs [] fs := ⟨rfl, by simp, fun _ _ => rfl⟩

theorem singleton (hc : Exports settings fs file content)
    (hw : fs.write file.outputFor content = .ok fs') : Tabulated settings fs [file] fs' := by
  have hsame := sameDirectories_of_write hw
  refine ⟨hsame.workingDirectory, ?_, ?_⟩
  · simp only [List.mem_singleton, forall_eq]
    refine ⟨content, hc, read_eq_ok_iff.mpr ?_⟩
    rw [hsame.placeOf_eq, find?_of_write hw, if_pos rfl]
    exact ⟨hsame.locate_eq_ok_iff.mpr hc.locate, rfl⟩
  · intro place hplace
    rw [find?_of_write hw, if_neg]
    intro h
    exact hplace file (by simp) (h ▸ hc.locate)

/-- Runs in a row add up. -/
theorem append {mid : FileSystem} (h : Tabulated settings fs files mid)
    (h' : Tabulated settings mid files' disk)
    (hext : ∀ file ∈ files ++ files', file.extension? = some programExtension) :
    Tabulated settings fs (files ++ files') disk := by
  have hleft : ∀ file ∈ files, file.extension? = some programExtension :=
    fun file hfile => hext file (List.mem_append_left files' hfile)
  have hright : ∀ file ∈ files', file.extension? = some programExtension :=
    fun file hfile => hext file (List.mem_append_right files hfile)
  have hmid := h.onlyTables hleft
  have hdisk := h'.onlyTables hright
  refine ⟨h'.workingDirectory.trans h.workingDirectory, fun file hfile => ?_, fun place hplace => ?_⟩
  · rcases List.mem_append.mp hfile with hfile | hfile
    · obtain ⟨content, hc, hread⟩ := h.table file hfile
      refine ⟨content, hc, ?_⟩
      rw [read_eq_ok_iff] at hread ⊢
      rw [hdisk.placeOf_eq, hdisk.locate_eq_ok_iff]
      refine ⟨hread.1, ?_⟩
      rcases h'.exists_or_find?_eq (mid.placeOf file.outputFor) with
        ⟨other, hother, content', hc', hplace, hf⟩ | hf
      · -- The table was written again, and it is the same.
        rw [exports_iff hmid (hright other hother)] at hc'
        rw [hmid.placeOf_eq, hmid.placeOf_eq] at hplace
        rw [hf, hc.unique (hleft file hfile) (hright other hother) hc' hplace.symm]
      · rw [hf, hread.2]
    · obtain ⟨content, hc, hread⟩ := h'.table file hfile
      exact ⟨content, (exports_iff hmid (hright file hfile)).mp hc, hread⟩
  · rw [h'.rest place, h.rest place]
    · exact fun file hfile => hplace file (List.mem_append_left files' hfile)
    · intro file hfile hl
      exact hplace file (List.mem_append_right files hfile) (hmid.locate_eq_ok_iff.mp hl)

end Tabulated

/-! ## 4. Runs -/

variable {done s : Summary}

/-- A run that comes to its end writes the tables of its files and nothing else. -/
theorem tabulated_exportFrom (hext : ∀ file ∈ files, file.extension? = some programExtension)
    (h : (exportFrom settings fs done files).outcome = .ok s) :
    Tabulated settings fs files (exportFrom settings fs done files).disk ∧
      s.written = done.written ++ files.map FilePath.outputFor := by
  induction files generalizing fs done with
  | nil =>
    obtain rfl := Except.ok.inj h
    exact ⟨.nil, by simp⟩
  | cons file files ih =>
    obtain ⟨fs', path, t, hout, hrest⟩ := exists_of_exportFrom_cons h
    obtain ⟨content, hc, hw, rfl⟩ := exportFile_eq_ok_iff_exports.mp ⟨t, hout⟩
    obtain ⟨htab, hwritten⟩ := ih (fun f hf => hext f (by simp [hf])) hrest
    rw [exportFrom_cons_of_ok hout, Run.disk_after]
    exact ⟨(Tabulated.singleton hc hw).append htab hext, by simp [hwritten, Summary.record]⟩

/-- A run comes to its end exactly if every file could be exported at its start. -/
theorem exists_exportFrom_iff (hext : ∀ file ∈ files, file.extension? = some programExtension) :
    (∃ s, (exportFrom settings fs done files).outcome = .ok s) ↔
      ∀ file ∈ files, ∃ content, Exports settings fs file content := by
  constructor
  · rintro ⟨s, hs⟩ file hfile
    obtain ⟨content, hc, -⟩ := (tabulated_exportFrom hext hs).1.table file hfile
    exact ⟨content, hc⟩
  · intro h
    induction files generalizing fs done with
    | nil => exact ⟨done, rfl⟩
    | cons file files ih =>
      obtain ⟨content, hc⟩ := h file (by simp)
      obtain ⟨p, u, -, -, -, fs', hw⟩ := id hc
      obtain ⟨t, hout⟩ := exportFile_eq_ok_iff_exports.mpr ⟨content, hc, hw, rfl⟩
      have honly := (Tabulated.singleton hc hw).onlyTables (by simpa using hext file (by simp))
      have hrest : ∀ other ∈ files, ∃ content, Exports settings fs' other content := by
        intro other hother
        obtain ⟨content', hc'⟩ := h other (by simp [hother])
        exact ⟨content', (exports_iff honly (hext other (by simp [hother]))).mpr hc'⟩
      obtain ⟨s, hs⟩ := @ih fs' (done.record file file.outputFor t)
        (fun f hf => hext f (by simp [hf])) hrest
      exact ⟨s, by rw [exportFrom_cons_of_ok hout, Run.outcome_after, hs]⟩

theorem tabulated_run (hext : ∀ file ∈ files, file.extension? = some programExtension)
    (h : (run settings fs files).outcome = .ok s) :
    Tabulated settings fs files (run settings fs files).disk ∧
      s.written = files.map FilePath.outputFor := by
  obtain ⟨htab, hwritten⟩ := @tabulated_exportFrom fs settings files Summary.empty s hext h
  exact ⟨htab, by rw [hwritten, Summary.empty, List.nil_append]⟩

/-- Files that could be exported at the start make a run that comes to its end. -/
theorem exists_tabulated_run (hext : ∀ file ∈ files, file.extension? = some programExtension)
    (h : ∀ file ∈ files, ∃ content, Exports settings fs file content) :
    ∃ s, (run settings fs files).outcome = .ok s ∧
      Tabulated settings fs files (run settings fs files).disk := by
  obtain ⟨s, hs⟩ := (@exists_exportFrom_iff fs settings files Summary.empty hext).mpr h
  exact ⟨s, hs, (tabulated_run hext hs).1⟩

/-- **Files of a run do not depend on each other.**  If a run over accepted inputs comes to its end, the
tables of its files are in their places, made of what the files held at the start, and nothing else has
changed, least of all an input.  The same files in any other order leave the same disk, each file has the
table that it gets alone, and the same run again changes nothing. -/
theorem run_isolated (hin : fs.checkInputs files = .ok ())
    (hrun : (run settings fs files).outcome = .ok s) :
    s.written = files.map FilePath.outputFor ∧
      Tabulated settings fs files (run settings fs files).disk ∧
      (∀ file ∈ files, (run settings fs files).disk.read file = fs.read file) ∧
      (∀ others, others.Perm files → ∃ s', (run settings fs others).outcome = .ok s' ∧
        SameContent (run settings fs files).disk (run settings fs others).disk) ∧
      (∀ file ∈ files, ∃ s', (run settings fs [file]).outcome = .ok s' ∧
        (run settings fs [file]).disk.read file.outputFor =
          (run settings fs files).disk.read file.outputFor) ∧
      (run settings fs files).disk.checkInputs files = .ok () ∧
      ∃ s', (run settings (run settings fs files).disk files).outcome = .ok s' ∧
        SameContent (run settings fs files).disk
          (run settings (run settings fs files).disk files).disk := by
  have hinput := checkInputs_eq_ok_iff.mp hin
  have hext : ∀ file ∈ files, file.extension? = some programExtension :=
    fun file hfile => (inputFault?_eq_none_iff.mp (hinput file hfile)).2
  obtain ⟨htab, hwritten⟩ := tabulated_run hext hrun
  generalize (run settings fs files).disk = disk at htab ⊢
  have honly := htab.onlyTables hext
  have hall : ∀ file ∈ files, ∃ content, Exports settings fs file content := fun file hfile =>
    (htab.table file hfile).imp fun _ h => h.1
  refine ⟨hwritten, htab, fun file hfile => ?_, fun others hperm => ?_, fun file hfile => ?_,
    checkInputs_eq_ok_iff.mpr fun file hfile => honly.inputFault?_eq_none (hinput file hfile), ?_⟩
  · obtain ⟨content, hread⟩ := isFile_iff.mp (inputFault?_eq_none_iff.mp (hinput file hfile)).1
    rw [hread, honly.read_eq_ok_iff (hext file hfile), hread]
  · have hmem : ∀ file, file ∈ others ↔ file ∈ files := fun file => hperm.mem_iff
    obtain ⟨s', hs', htab'⟩ := exists_tabulated_run
      (fun file hfile => hext file ((hmem file).mp hfile))
      (fun file hfile => hall file ((hmem file).mp hfile))
    exact ⟨s', hs', htab.sameContent hext htab' hmem⟩
  · obtain ⟨s', hs', halone⟩ := @exists_tabulated_run fs settings [file]
      (by simpa using hext file hfile) (by simpa using hall file hfile)
    obtain ⟨content, hc, hread⟩ := halone.table file (by simp)
    obtain ⟨content', hc', hread'⟩ := htab.table file hfile
    exact ⟨s', hs', by rw [hread, hread', hc.unique (hext file hfile) (hext file hfile) hc' rfl]⟩
  · obtain ⟨s', hs', hagain⟩ := exists_tabulated_run hext fun file hfile =>
      (hall file hfile).imp fun _ hc => (exports_iff honly (hext file hfile)).mpr hc
    -- Both runs together are a run over the files, each twice.
    have htwice := htab.append hagain fun file hfile => hext file (by simpa using hfile)
    exact ⟨s', hs', htab.sameContent hext htwice fun file => by simp⟩

/-! Two programs, one of them twice and in two spellings. -/

namespace Example

/-- A program with one line. -/
def shipDocument : Document where
  nodes := [⟨"Ship", [], [.line "line:1"]⟩]
  strings := []
  lineInfo := []

/-- A working directory with two programs, one of them empty. -/
def roads : FileSystem :=
  ⟨Table.ofEntries [([['w']], .directory),
    ([['w'], "quay.json".toList], .file "{}".toUTF8),
    ([['w'], "ship.json".toList], .file (String.ofList shipDocument.print).toUTF8)], [['w']]⟩

def inputs : List FilePath := [⟨"quay.json"⟩, ⟨".//quay.json"⟩, ⟨"ship.json"⟩]

theorem run_isolated_roads :
    ∃ s, roads.checkInputs inputs = .ok () ∧ (run {} roads inputs).outcome = .ok s ∧
      s.written = [⟨"quay_lines.csv"⟩, ⟨"./quay_lines.csv"⟩, ⟨"ship_lines.csv"⟩] ∧
      ∃ s', (run {} roads inputs.reverse).outcome = .ok s' ∧
        SameContent (run {} roads inputs).disk (run {} roads inputs.reverse).disk := by
  have hin : roads.checkInputs inputs = .ok () := toOption_eq_some_iff.mp (by decide +kernel)
  have hwritten : (run {} roads inputs).outcome.toOption.map Summary.written =
      some [⟨"quay_lines.csv"⟩, ⟨"./quay_lines.csv"⟩, ⟨"ship_lines.csv"⟩] := by decide +kernel
  obtain ⟨s, hs, hpaths⟩ := Option.map_eq_some_iff.mp hwritten
  have hrun : (run {} roads inputs).outcome = .ok s := toOption_eq_some_iff.mp hs
  obtain ⟨-, -, -, hperm, -⟩ := run_isolated hin hrun
  exact ⟨s, hin, hrun, hpaths, hperm _ inputs.reverse_perm⟩

end Example

end Export

end DialogueExport
