import DialogueExport.FilePath
import DialogueExport.Program.Load

/-!
# Why no table is made

Everything that stops the export of a file, with the file it happened in.  `message` says it in
one line; `chain` lists the same from the outermost cause inwards, each in its own words.
-/

namespace DialogueExport

/-- What the file system refuses. -/
inductive IoFault where
  | notFound
  | isDirectory
  | notDirectory
  | nameTooLong
  /-- The content of a file is not UTF-8. -/
  | notText
  /-- A path with a null character names nothing. -/
  | nullInPath
deriving DecidableEq

def IoFault.message : IoFault → String
  | notFound => "No such file or directory (os error 2)"
  | isDirectory => "Is a directory (os error 21)"
  | notDirectory => "Not a directory (os error 20)"
  | nameTooLong => "File name too long (os error 36)"
  | notText => "stream did not contain valid UTF-8"
  | nullInPath => "file name contained an unexpected NUL byte"

/-- Why a file has no table (`TableError`). -/
inductive ExportError where
  /-- The file is no program. -/
  | badProgram (file : FilePath) (cause : LoadError)
  /-- The line `code` has no declaration. -/
  | noLineInfo (file : FilePath) (code text : String)
  /-- The declaration of `code` names a node that is not there. -/
  | noNode (file : FilePath) (code node : String)
  /-- The line `code` is delivered a second time, and that is not allowed. -/
  | repeatedCode (file : FilePath) (code : String)
  /-- A path cannot be read or written. -/
  | io (path : FilePath) (cause : IoFault)
deriving DecidableEq

namespace ExportError

def message : ExportError → String
  | badProgram file cause => file.text ++ ": failed to load program: " ++ cause.message
  | noLineInfo file code text =>
    file.text ++ ": lineInfo table does not contain an entry for line " ++ code ++ " (\"" ++ text
      ++ "\")"
  | noNode file code node =>
    file.text ++ ": line " ++ code ++ "'s lineInfo claims that the line originates in node "
      ++ node ++ ", but this node is not present in this program"
  | repeatedCode file code => file.text ++ ": line code " ++ code ++ " is emitted more than once"
  | io path cause => path.text ++ ": " ++ cause.message

/-- The error and what lies behind it, outermost first. -/
def chain (e : ExportError) : List String :=
  e.message ::
    match e with
    | badProgram _ (.malformed cause) => [(LoadError.malformed cause).message, cause.message]
    | badProgram _ cause => [cause.message]
    | io _ cause => [cause.message]
    | _ => []

end ExportError

end DialogueExport
