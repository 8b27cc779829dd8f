import DialogueExport.Scan
import DialogueExport.Sorting
import DialogueExport.Untagged

/-!
# Inspecting a program

The numbers of a program, without a table: of its parts, of its entries with and without a line
code, and of the lines of each speaker.
-/

namespace DialogueExport

/-- The numbers of a program (`ProgramStats`). -/
structure Inspection where
  nodes : Nat
  instructions : Nat
  strings : Nat
  canonical : Nat
  implicit : Nat
  /-- How many lines each speaker has, by name; the empty name stands for nobody. -/
  lines : List (String × Nat)
  /-- The codes of the lines that were delivered again. -/
  repeats : List String

namespace Inspection

/-- Counts one more of a name. -/
def tick (t : Table String Nat) (name : String) : Table String Nat :=
  t.insert name (t.getD name 0 + 1)

/-- How often each name occurs, as `lines_per_speaker` counts it. -/
def tally (names : List String) : Table String Nat := names.foldl tick Table.empty

/-- The numbers of a program whose deliveries are known. -/
def ofLedger (p : Program) (ledger : Ledger) : Inspection :=
  let canonical := (p.strings.keys.filter fun k => KeyKind.of k = .canonical).length
  { nodes := p.nodes.size
    instructions := p.instructionCount
    strings := p.strings.size
    canonical := canonical
    implicit := p.strings.size - canonical
    lines := sortByKey (tally (ledger.observations.values.map Observation.speaker)).entries
    repeats := ledger.repeats }

/-- The numbers of a program (`inspect_program`). -/
def ofProgram (p : Program) (file : FilePath) (settings : ScanSettings) :
    Logged ExportError Inspection := do
  let ledger ← p.scan file settings
  return ofLedger p ledger

end Inspection

end DialogueExport
