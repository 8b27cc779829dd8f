import DialogueExport.FileSystem

/-!
# Checking the inputs

Every input must be a file and must be named as a program.  The list is checked as a whole
before anything else is done, and the first input that does not pass is named (section 10.8 of the
specification).
-/

namespace DialogueExport

/-- Why a path is no input. -/
inductive InputFault where
  | notFile (path : FilePath)
  | wrongExtension (path : FilePath)
deriving DecidableEq

/-- The extension of programs, the only one of `ALLOWED_EXTENSIONS`. -/
def programExtension : List Char := ['j', 's', 'o', 'n']

def InputFault.message : InputFault → String
  | notFile path => Text.quoted path.text ++ " does not exist or is not a file"
  | wrongExtension path =>
    Text.quoted path.text ++ " is not a supported input (expected one of: json)"

namespace FileSystem

/-- Why a path is no input, if it is none.  That there is no file counts first. -/
def inputFault? (fs : FileSystem) (path : FilePath) : Option InputFault :=
  if !fs.isFile path then some (.notFile path)
  else if path.extension? ≠ some programExtension then some (.wrongExtension path)
  else none

/-- Whether all paths are inputs; if not, what is wrong with the first that is none
(`check_file_list`). -/
def checkInputs (fs : FileSystem) (paths : List FilePath) : Except InputFault Unit :=
  match paths.findSome? fs.inputFault? with
  | some fault => .error fault
  | none => .ok ()

variable {fs : FileSystem} {path : FilePath}

theorem checkInputs_eq_ok_iff {paths : List FilePath} :
    fs.checkInputs paths = .ok () ↔ ∀ path ∈ paths, fs.inputFault? path = none := by
  rw [checkInputs, ← List.findSome?_eq_none_iff]
  cases paths.findSome? fs.inputFault? <;> simp

theorem inputFault?_eq_none_iff :
    fs.inputFault? path = none ↔
      fs.isFile path = true ∧ path.extension? = some programExtension := by
  rw [inputFault?]
  cases fs.isFile path <;> simp

end FileSystem

end DialogueExport
