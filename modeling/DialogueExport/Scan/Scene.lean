import DialogueExport.Direction
import DialogueExport.Program

/-!
# The scene

While the instructions of a program go by, the scene knows who speaks and which options wait
to be shown.  `Scene.advance` says what an instruction does to it, `Scene.delivers` which lines
it delivers; a line is spoken by whoever speaks after the instruction (`Scene.emissions`).  The
rules are those of sections 4.1 and 10.3 of the specification.

Without capture no option ever waits, so none is ever delivered
(`advance_pending_of_not_capture`).
-/

namespace DialogueExport

/-- What happens to a line that is delivered a second time (`DuplicatePolicy`). -/
inductive OnRepeat where
  /-- The first time counts. -/
  | keepFirst
  /-- The file fails. -/
  | abort
deriving DecidableEq

/-- How lines are attributed to speakers (`ScanConfig`). -/
structure ScanSettings where
  /-- Who speaks once options are shown. -/
  optionsSpeaker : String := "Fennel"
  /-- Whether options that are shown count as lines. -/
  captureOptions : Bool := false
  onRepeat : OnRepeat := .keepFirst
deriving DecidableEq

/-- Who speaks, and the codes of the options that wait (the `current_speaker` and the
`pending_options` of `ScanState`).  The text of an option is looked up when it is delivered, as the
string table does not change in between. -/
structure Scene where
  /-- Empty if nobody speaks. -/
  speaker : String
  pending : List String
deriving DecidableEq

/-- A line as it was delivered (`LineObservation`). -/
structure Observation where
  text : String
  speaker : String
  /-- The node of the instruction that delivered it. -/
  node : String
deriving DecidableEq

/-- The delivery of a line. -/
structure Emission where
  code : String
  observation : Observation
deriving DecidableEq

namespace Scene

/-- The scene before the first instruction. -/
def start : Scene := ⟨"", []⟩

/-- What an instruction does to the scene. -/
def advance (settings : ScanSettings) (scene : Scene) : Instruction → Scene
  | .line _ => scene
  | .option code =>
    if settings.captureOptions then { scene with pending := scene.pending ++ [code] } else scene
  | .showOptions => ⟨settings.optionsSpeaker, []⟩
  | .command text =>
    match Direction.ofText text with
    | .enter name => { scene with speaker := name }
    | .leave => { scene with speaker := "" }
    | .other => scene
  | .other _ => scene

/-- The codes of the lines that an instruction delivers. -/
def delivers (scene : Scene) : Instruction → List String
  | .line code => [code]
  | .showOptions => scene.pending
  | _ => []

/-- The lines that an instruction delivers, as they are spoken. -/
def emissions (settings : ScanSettings) (textOf : String → String) (scene : Scene)
    (node : String) (i : Instruction) : List Emission :=
  (scene.delivers i).map fun code => ⟨code, textOf code, (scene.advance settings i).speaker, node⟩

/-- Without capture the queue of options stays empty. -/
theorem advance_pending_of_not_capture {settings : ScanSettings}
    (hc : settings.captureOptions = false) {scene : Scene} (hp : scene.pending = [])
    (i : Instruction) : (scene.advance settings i).pending = [] := by
  cases i with
  | line | other => exact hp
  | option code => simp [advance, hc, hp]
  | showOptions => rfl
  | command text =>
    simp only [advance]
    split <;> exact hp

end Scene

end DialogueExport
