import DialogueExport.Export
import DialogueExport.Outcome

/-!
# Exporting one file

A file is loaded, its table is made and written beside it.  Its table is written exactly if all three
steps come to their ends (`exportFile_eq_ok_iff`), and if not, `Fails` says at which of them it stopped
(`exportFile_eq_error_iff`).  A run goes on from a file in the first case and ends in the second
(`exportFrom_cons_of_ok`, `exportFrom_cons_of_error`).
-/

namespace DialogueExport

namespace Export

variable {settings : Settings} {fs fs' : FileSystem} {file path : FilePath} {t : LineTable}
  {e : ExportError}

theorem writeRows_eq_ok_iff {rows : List Row} {verbose : Bool} :
    (writeRows fs file rows verbose).outcome = .ok (fs', path) ↔
      fs.write file.outputFor (Csv.encodeText rows).toUTF8 = .ok fs' ∧ path = file.outputFor := by
  simp only [writeRows, Logged.outcome_bind, Logged.outcome_report, bind_eq_ok, true_and,
    exists_const]
  cases fs.write file.outputFor (Csv.encodeText rows).toUTF8 with
  | error fault => simp
  | ok fs₁ =>
    simp only [Logged.outcome_bind, Logged.outcome_report, bind_eq_ok, Logged.outcome_pure, true_and,
      exists_const, Except.ok.injEq, Prod.mk.injEq]
    exact and_congr_right fun _ => eq_comm

theorem writeRows_eq_error_iff {rows : List Row} {verbose : Bool} :
    (writeRows fs file rows verbose).outcome = .error e ↔
      ∃ fault, fs.write file.outputFor (Csv.encodeText rows).toUTF8 = .error fault ∧
        e = .io file.outputFor fault := by
  simp only [writeRows, Logged.outcome_bind, Logged.outcome_report, bind_eq_error, reduceCtorEq,
    false_or, true_and, exists_const]
  cases fs.write file.outputFor (Csv.encodeText rows).toUTF8 with
  | error fault => simp [eq_comm]
  | ok fs₁ =>
    simp only [Logged.outcome_bind, Logged.outcome_report, bind_eq_error, Logged.outcome_pure,
      reduceCtorEq, false_or, and_false, false_and, exists_false]

/-- A file is exported exactly if it is loaded and its table is made and written beside it. -/
theorem exportFile_eq_ok_iff :
    (exportFile settings fs file).outcome = .ok (fs', path, t) ↔
      ∃ p, fs.loadProgram file = .ok p ∧
        (LineTable.ofProgram p file settings.selection settings.scan).outcome = .ok t ∧
        fs.write file.outputFor (Csv.encodeText t.rows).toUTF8 = .ok fs' ∧
        path = file.outputFor := by
  simp only [exportFile, Logged.outcome_bind, Logged.outcome_ofExcept, bind_eq_ok, Logged.outcome_pure,
    Except.ok.injEq, Prod.mk.injEq, writeRows_eq_ok_iff, Prod.exists]
  constructor
  · rintro ⟨p, hp, t, ht, fs', path, hw, rfl, rfl, rfl⟩
    exact ⟨p, hp, ht, hw⟩
  · rintro ⟨p, hp, ht, hw⟩
    exact ⟨p, hp, t, ht, fs', path, hw, rfl, rfl, rfl⟩

/-- Why a file has no table written. -/
inductive Fails (settings : Settings) (fs : FileSystem) (file : FilePath) : ExportError → Prop
  /-- It cannot be read, or it is no program. -/
  | load {e : ExportError} (h : fs.loadProgram file = .error e) : Fails settings fs file e
  /-- Its table cannot be made. -/
  | table {p : Program} {e : ExportError} (hp : fs.loadProgram file = .ok p)
      (h : (LineTable.ofProgram p file settings.selection settings.scan).outcome = .error e) :
      Fails settings fs file e
  /-- The path of its table cannot be written. -/
  | output {p : Program} {t : LineTable} {fault : IoFault} (hp : fs.loadProgram file = .ok p)
      (ht : (LineTable.ofProgram p file settings.selection settings.scan).outcome = .ok t)
      (h : fs.write file.outputFor (Csv.encodeText t.rows).toUTF8 = .error fault) :
      Fails settings fs file (.io file.outputFor fault)

theorem exportFile_eq_error_iff :
    (exportFile settings fs file).outcome = .error e ↔ Fails settings fs file e := by
  simp only [exportFile, Logged.outcome_bind, Logged.outcome_ofExcept, bind_eq_error, Logged.outcome_pure,
    writeRows_eq_error_iff, reduceCtorEq, and_false, exists_false, or_false]
  constructor
  · rintro (h | ⟨p, hp, h | ⟨t, ht, fault, hw, rfl⟩⟩)
    · exact .load h
    · exact .table hp h
    · exact .output hp ht hw
  · intro h
    cases h with
    | load h => exact Or.inl h
    | table hp h => exact Or.inr ⟨_, hp, Or.inl h⟩
    | output hp ht h => exact Or.inr ⟨_, hp, Or.inr ⟨_, ht, _, h, rfl⟩⟩

/-! ## One step of a run -/

variable {done s : Summary} {files : List FilePath}

theorem exportFrom_cons_of_ok (h : (exportFile settings fs file).outcome = .ok (fs', path, t)) :
    exportFrom settings fs done (file :: files) =
      (exportFrom settings fs' (done.record file path t) files).after
        (exportFile settings fs file).events := by
  simp only [exportFrom, h]

theorem exportFrom_cons_of_error (h : (exportFile settings fs file).outcome = .error e) :
    exportFrom settings fs done (file :: files) =
      ⟨fs, (exportFile settings fs file).events ++ [.failed e], .error e⟩ := by
  simp only [exportFrom, h]

/-- Where a run comes to its end, its first file was exported. -/
theorem exists_of_exportFrom_cons (h : (exportFrom settings fs done (file :: files)).outcome = .ok s) :
    ∃ fs' path t, (exportFile settings fs file).outcome = .ok (fs', path, t) ∧
      (exportFrom settings fs' (done.record file path t) files).outcome = .ok s := by
  cases hout : (exportFile settings fs file).outcome with
  | error e => simp [exportFrom_cons_of_error hout] at h
  | ok r =>
    obtain ⟨fs', path, t⟩ := r
    exact ⟨fs', path, t, rfl, by simpa [exportFrom_cons_of_ok hout] using h⟩

end Export

end DialogueExport
