import DialogueExport.Csv
import DialogueExport.FileSystem
import DialogueExport.LineTable

/-!
# Exporting files

A run takes the files one after the other: it loads each, builds its table and writes the table
beside it.  The first failure ends the run; what was written before it stays, and the failure is
the last thing that is reported.  A run that comes to its end reports which files have lines
without a line code.  Sections 5 and 10.5 of the specification ask for this.
-/

namespace DialogueExport

/-- The program in a file (`parse_program_file`). -/
def FileSystem.loadProgram (fs : FileSystem) (file : FilePath) : Except ExportError Program :=
  match fs.readText file with
  | .error fault => .error (.io file fault)
  | .ok text =>
    match Program.load text with
    | .error cause => .error (.badProgram file cause)
    | .ok p => .ok p

namespace Export

/-- What is exported and how much is reported (`TableConfig`). -/
structure Settings where
  selection : Selection := Selection.all
  /-- Whether the progress is reported for the reader. -/
  verbose : Bool := false
  scan : ScanSettings := {}

/-- What a run has done so far (`RunSummary`, with the files still to be named in `tally`). -/
structure Summary where
  /-- The tables that were written, in the order of their inputs. -/
  written : List FilePath
  /-- The inputs that have lines without a line code. -/
  tally : Untagged.Tally

namespace Summary

def empty : Summary := ⟨[], Untagged.Tally.empty⟩

/-- Counts a file whose table was written. -/
def record (s : Summary) (file path : FilePath) (table : LineTable) : Summary :=
  ⟨s.written ++ [path], s.tally.record file table.untagged⟩

end Summary

/-! ## 1. One file -/

/-- Writes rows beside their input: the new state of the disk and the path of the table
(`execute_export`, `write_line_table`). -/
def writeRows (fs : FileSystem) (file : FilePath) (rows : List Row) (verbose : Bool) :
    Logged ExportError (FileSystem × FilePath) := do
  Logged.report [.writing file]
  let path := file.outputFor
  match fs.write path (Csv.encodeText rows).toUTF8 with
  | .error fault => Logged.ofExcept (.error (.io path fault))
  | .ok fs =>
    Logged.report (if verbose then [.wrote path] else [])
    return (fs, path)

/-- Loads a file, builds its table and writes it (`process_file`). -/
def exportFile (settings : Settings) (fs : FileSystem) (file : FilePath) :
    Logged ExportError (FileSystem × FilePath × LineTable) := do
  let p ← Logged.ofExcept (fs.loadProgram file)
  let table ← LineTable.ofProgram p file settings.selection settings.scan
  let (fs, path) ← writeRows fs file table.rows settings.verbose
  return (fs, path, table)

/-! ## 2. Several files -/

/-- How a run ended: with the disk, what was reported, and the summary or the failure. -/
structure Run where
  disk : FileSystem
  events : List Event
  outcome : Except ExportError Summary

/-- Puts events in front of those of a run. -/
def Run.after (events : List Event) (r : Run) : Run := { r with events := events ++ r.events }

@[simp] theorem Run.disk_after (events : List Event) (r : Run) : (r.after events).disk = r.disk := rfl

@[simp] theorem Run.events_after (events : List Event) (r : Run) :
    (r.after events).events = events ++ r.events := rfl

@[simp] theorem Run.outcome_after (events : List Event) (r : Run) :
    (r.after events).outcome = r.outcome := rfl

@[simp] theorem Run.after_after (events events' : List Event) (r : Run) :
    (r.after events').after events = r.after (events ++ events') := by
  simp [Run.after]

/-- Exports the files that are left: the loop of `generate_tables`. -/
def exportFrom (settings : Settings) (fs : FileSystem) (done : Summary) : List FilePath → Run
  | [] => ⟨fs, done.tally.events, .ok done⟩
  | file :: files =>
    let this := exportFile settings fs file
    match this.outcome with
    | .error e => ⟨fs, this.events ++ [.failed e], .error e⟩
    | .ok (fs, path, table) =>
      (exportFrom settings fs (done.record file path table) files).after this.events

/-- What is reported before the first file. -/
def opening (settings : Settings) : List Event :=
  .started ::
    match settings.verbose, settings.selection.tag with
    | true, some tag => [.onlyTag tag]
    | _, _ => []

/-- Exports files in order (`generate_tables`). -/
def run (settings : Settings) (fs : FileSystem) (files : List FilePath) : Run :=
  (exportFrom settings fs Summary.empty files).after (opening settings)

end Export

end DialogueExport
