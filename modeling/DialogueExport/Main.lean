import DialogueExport.CommandLine.Session

/-!
# The program

The outer layer: it looks at the places that the words of the command line lead through, runs
the command line on what is there, and writes the files that have changed.
-/

namespace DialogueExport.Main

/-- Looks at the places on the way of a path. -/
def look (fs : FileSystem) (p : FilePath) : IO FileSystem :=
  (fs.onWay p).foldlM (fun fs (place, q) => do
    let real := (← IO.currentDir) / q.text
    if ← real.isDir then return fs.put place .directory
    try
      return fs.put place (.file (← IO.FS.readBinFile real))
    catch _ => return fs) fs

/-- What is at the places that the words name, and where their tables would go. -/
def lookAll (fs : FileSystem) (words : List String) : IO FileSystem :=
  words.foldlM (fun fs w => do
    let p : FilePath := ⟨w⟩
    look (← look fs p) p.outputFor) fs

/-- Writes the files that differ. -/
def writeBack (before after : FileSystem) : IO Unit :=
  after.entries.entries.forM fun e =>
    match e.2 with
    | .directory => pure ()
    | .file content => do
      let same := match before.find? e.1 with
        | some (.file old) => old.data == content.data
        | _ => false
      if !same then IO.FS.writeBinFile (String.ofList ('/' :: Text.join '/' e.1)) content

/-- Runs the words of a command line on the files that they name. -/
def runWords (words : List String) : IO UInt32 := do
  let home := toString (← IO.currentDir)
  let place := (Text.split '/' home.toList).filter (· ≠ [])
  let fs ← look ⟨Table.empty, place⟩ ⟨home⟩
  let fs ← lookAll fs words
  let session := CommandLine.run fs words
  writeBack fs session.disk
  IO.print session.stdout
  IO.eprint session.stderr
  return session.exit.toUInt32

end DialogueExport.Main

/-- The command line. -/
def main (words : List String) : IO UInt32 := DialogueExport.Main.runWords words
