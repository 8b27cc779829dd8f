import DialogueExport.Logged
import DialogueExport.Scan.Ledger

/-!
# Scanning a program

The scan goes once through all instructions of a program, in order, and enters every line that
is delivered into a ledger.  Nothing is executed: no branch is taken, and who speaks is carried
from node to node.

An instruction is handled in the same way whatever it is: it is announced (`announce`), the
lines it delivers are entered (`enter`), the deed is reported (`conclude`), and the scene goes on
(`Scene.advance`).  Entering is the only thing that can fail, and it fails only if repeats are
not allowed.
-/

namespace DialogueExport

namespace Scan

/-- Where a scan stands. -/
structure State where
  scene : Scene
  ledger : Ledger

def start : State := ⟨Scene.start, Ledger.empty⟩

/-- The warning about a line without text. -/
def missing (p : Program) (file : FilePath) (code : String) : List Event :=
  if p.strings.contains code then [] else [.noText file code]

/-- What is reported of an instruction before its lines are entered. -/
def announce (p : Program) (file : FilePath) (settings : ScanSettings) :
    Instruction → List Event
  | .line code => missing p file code
  | .option code => if settings.captureOptions then missing p file code else []
  | .command text =>
    .command text ::
      match Direction.ofText text with
      | .enter name => [.enters name]
      | _ => []
  | _ => []

/-- What is reported of an instruction after its lines are entered. -/
def conclude (p : Program) (scene : Scene) : Instruction → List Event
  | .line code => [.spoken code (p.textOf code) scene.speaker]
  | _ => []

/-- Enters a delivery (`record`).  A repeat is reported, or fails. -/
def enter (file : FilePath) (onRepeat : OnRepeat) (ledger : Ledger) (e : Emission) :
    Logged ExportError Ledger :=
  if ledger.has e.code then
    match onRepeat with
    | .keepFirst => ⟨[.repeated file e.code], .ok (ledger.add e)⟩
    | .abort => ⟨[], .error (.repeatedCode file e.code)⟩
  else ⟨[], .ok (ledger.add e)⟩

/-- Handles one instruction of a node (`step`): `Scene.advance` says what it does to the scene,
`announce` and `conclude` say what is reported of it. -/
def step (p : Program) (file : FilePath) (settings : ScanSettings) (st : State)
    (node : String) (i : Instruction) : Logged ExportError State := do
  Logged.report (announce p file settings i)
  let scene := st.scene.advance settings i
  let ledger ← (st.scene.emissions settings p.textOf node i).foldlM
    (enter file settings.onRepeat) st.ledger
  Logged.report (conclude p scene i)
  return ⟨scene, ledger⟩

/-- Handles instructions in order. -/
def steps (p : Program) (file : FilePath) (settings : ScanSettings) (st : State)
    (stream : List (String × Instruction)) : Logged ExportError State :=
  stream.foldlM (fun st i => step p file settings st i.1 i.2) st

end Scan

/-- The deliveries of a program (`scan_program`). -/
def Program.scan (p : Program) (file : FilePath) (settings : ScanSettings) :
    Logged ExportError Ledger := do
  let st ← Scan.steps p file settings Scan.start p.stream
  return st.ledger

end DialogueExport
