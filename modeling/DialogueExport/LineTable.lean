import DialogueExport.Scan
import DialogueExport.Sorting
import DialogueExport.Selection
import DialogueExport.Untagged

/-!
# The table of lines

The lines that were delivered in selected nodes are the seed of the table.  Then the string table
is read, entry by entry: the text of a selected entry takes the place of whatever was there, an
entry that is not selected is taken out, so the string table has the last word on every line that
it knows.  The rows are sorted by code.  A speaker always comes from the first delivery.

An entry of the string table whose node is not known makes the whole file fail (sections 4.4 and 10.4
of the specification).
-/

namespace DialogueExport

/-- The table of a file (`BuildOutcome`). -/
structure LineTable where
  /-- Sorted by code. -/
  rows : List Row
  /-- The selected entries of the string table without a line code, in its order. -/
  untagged : List (String × String)
deriving DecidableEq

namespace LineTable

/-- The table while the string table is read. -/
structure Draft where
  /-- The texts of the lines so far. -/
  texts : Table String String
  /-- The selected entries of the string table so far. -/
  selected : List (String × String)

/-- The lines that were delivered in selected nodes, with the texts they had then. -/
def seed (p : Program) (ledger : Ledger) (sel : Selection) : Table String String :=
  ledger.observations.filterMap fun o => if sel.admitsName p o.node then some o.text else none

/-- Reads an entry of the string table: one turn of the loop of `build_line_table`. -/
def mergeEntry (p : Program) (file : FilePath) (sel : Selection) (d : Draft)
    (e : String × String) : Logged ExportError Draft := do
  let admitted ← Logged.ofExcept (sel.admits p file e.1)
  if admitted then
    Logged.report [Untagged.entryEvent file e.1 e.2]
    return ⟨d.texts.insert e.1 e.2, d.selected ++ [e]⟩
  else return ⟨d.texts.erase e.1, d.selected⟩

/-- Reads entries of the string table.  The first one whose node is not known ends it. -/
def merge (p : Program) (file : FilePath) (sel : Selection) (d : Draft)
    (entries : List (String × String)) : Logged ExportError Draft :=
  entries.foldlM (mergeEntry p file sel) d

/-- The row of a line. -/
def rowOf (ledger : Ledger) (code text : String) : Row :=
  ⟨code, text, (ledger.speaker? code).getD "", ""⟩

/-- What is reported of a row. -/
def rowEvent (r : Row) : Event := .row r.code r.text r.character

/-- The table of a program whose deliveries are known (`build_line_table`). -/
def build (p : Program) (file : FilePath) (ledger : Ledger) (sel : Selection) :
    Logged ExportError LineTable := do
  let d ← merge p file sel ⟨seed p ledger sel, []⟩ p.strings.entries
  let rows := (sortByKey d.texts.entries).map fun e => rowOf ledger e.1 e.2
  let untagged := Untagged.select d.selected
  Logged.report (rows.map rowEvent)
  Logged.report (Untagged.fileEvents file untagged)
  return ⟨rows, untagged⟩

/-- The table of a program: scan it, then build (`process_program`). -/
def ofProgram (p : Program) (file : FilePath) (sel : Selection) (settings : ScanSettings) :
    Logged ExportError LineTable := do
  let ledger ← p.scan file settings
  Logged.report [.scanned file p.nodes.size ledger.observations.size]
  build p file ledger sel

end LineTable

end DialogueExport
