import DialogueExport.Export

/-!
# What is reported of one file

While a file is exported nothing is reported but routine events: no failure, and nothing about the whole
run (`routine_exportFile`).  Both are left to the run that the file is a part of.  Each step of the export
reports only routine events of its own, and a computation reports what its steps do
(`Logged.ReportsOnly.bind`, `Logged.reportsOnly_foldlM`).
-/

namespace DialogueExport

/-! ## 1. Routine events -/

namespace Event

/-- Whether an event is neither a failure nor about a whole run. -/
def isRoutine : Event → Bool
  | failed _ | inspectionFailed _ | untaggedFiles _ => false
  | _ => true

/-- The event is neither a failure nor about a whole run. -/
def Routine (e : Event) : Prop := e.isRoutine = true

instance (e : Event) : Decidable e.Routine := inferInstanceAs (Decidable (_ = true))

theorem Routine.level_ne {e : Event} (h : e.Routine) : e.level ≠ .error := by
  cases e <;> simp_all [Routine, isRoutine, level]

theorem Routine.ne_untaggedFiles {e : Event} (h : e.Routine) (files : List FilePath) :
    e ≠ .untaggedFiles files := by
  rintro rfl
  cases h

end Event

open Event (Routine)
open Logged (ReportsOnly reportsOnly_pure reportsOnly_ofExcept reportsOnly_report reportsOnly_foldlM)

variable {p : Program} {file : FilePath}

/-! ## 2. The scan -/

namespace Scan

theorem routine_missing (code : String) : ∀ e ∈ missing p file code, Routine e := by
  unfold missing
  split
  · simp
  · simp [Routine, Event.isRoutine]

theorem routine_announce (settings : ScanSettings) (i : Instruction) :
    ∀ e ∈ announce p file settings i, Routine e := by
  cases i with
  | line code => exact routine_missing code
  | option code =>
    simp only [announce]
    split
    · exact routine_missing code
    · simp
  | command text =>
    simp only [announce]
    split <;> simp [Routine, Event.isRoutine]
  | showOptions | other => simp [announce]

theorem routine_conclude (scene : Scene) (i : Instruction) :
    ∀ e ∈ conclude p scene i, Routine e := by
  cases i <;> simp [conclude, Routine, Event.isRoutine]

theorem routine_enter (onRepeat : OnRepeat) (ledger : Ledger) (e : Emission) :
    (enter file onRepeat ledger e).ReportsOnly Routine := by
  unfold enter
  split
  · cases onRepeat <;> simp [ReportsOnly, Routine, Event.isRoutine]
  · simp [ReportsOnly]

theorem routine_step (settings : ScanSettings) (st : State) (node : String) (i : Instruction) :
    (step p file settings st node i).ReportsOnly Routine := by
  refine (reportsOnly_report (routine_announce settings i)).bind fun _ => ?_
  refine (reportsOnly_foldlM (fun ledger e => routine_enter settings.onRepeat ledger e) _ _).bind
    fun ledger => ?_
  exact (reportsOnly_report (routine_conclude _ i)).bind fun _ => reportsOnly_pure _

theorem routine_scan (settings : ScanSettings) : (p.scan file settings).ReportsOnly Routine := by
  have hsteps : (steps p file settings start p.stream).ReportsOnly Routine :=
    reportsOnly_foldlM (fun st (i : String × Instruction) => routine_step settings st i.1 i.2) _ _
  exact hsteps.bind fun st => reportsOnly_pure _

end Scan

/-! ## 3. The table -/

namespace LineTable

theorem routine_entryEvent (key text : String) : Routine (Untagged.entryEvent file key text) := by
  unfold Untagged.entryEvent
  split <;> rfl

theorem routine_fileEvents (entries : List (String × String)) :
    ∀ e ∈ Untagged.fileEvents file entries, Routine e := by
  unfold Untagged.fileEvents
  split <;> simp [Routine, Event.isRoutine]

theorem routine_mergeEntry (sel : Selection) (d : Draft) (x : String × String) :
    (mergeEntry p file sel d x).ReportsOnly Routine := by
  refine (reportsOnly_ofExcept _).bind fun admitted => ?_
  cases admitted with
  | true =>
    exact (reportsOnly_report (by simp [routine_entryEvent])).bind fun _ => reportsOnly_pure _
  | false => exact reportsOnly_pure _

theorem routine_build (ledger : Ledger) (sel : Selection) :
    (build p file ledger sel).ReportsOnly Routine := by
  refine (reportsOnly_foldlM (fun d x => routine_mergeEntry sel d x) _ _).bind fun d => ?_
  refine (reportsOnly_report ?_).bind fun _ => ?_
  · intro e he
    obtain ⟨r, -, rfl⟩ := List.mem_map.mp he
    rfl
  · exact (reportsOnly_report (routine_fileEvents _)).bind fun _ => reportsOnly_pure _

theorem routine_ofProgram (sel : Selection) (settings : ScanSettings) :
    (ofProgram p file sel settings).ReportsOnly Routine := by
  refine (Scan.routine_scan settings).bind fun ledger => ?_
  refine (reportsOnly_report (by simp [Routine, Event.isRoutine])).bind fun _ => ?_
  exact routine_build ledger sel

end LineTable

/-! ## 4. The file -/

namespace Export

theorem routine_writeRows (fs : FileSystem) (rows : List Row) (verbose : Bool) :
    (writeRows fs file rows verbose).ReportsOnly Routine := by
  refine (reportsOnly_report (by simp [Routine, Event.isRoutine])).bind fun _ => ?_
  dsimp only
  split
  · exact reportsOnly_ofExcept _
  · refine (reportsOnly_report ?_).bind fun _ => reportsOnly_pure _
    split <;> simp [Routine, Event.isRoutine]

/-- **What is reported of one file** is no failure and nothing about the whole run. -/
theorem routine_exportFile (settings : Settings) (fs : FileSystem) (file : FilePath) :
    (exportFile settings fs file).ReportsOnly Routine := by
  refine (reportsOnly_ofExcept _).bind fun p => ?_
  refine (LineTable.routine_ofProgram _ _).bind fun t => ?_
  exact (routine_writeRows fs _ _).bind fun _ => reportsOnly_pure _

theorem routine_opening (settings : Settings) : ∀ e ∈ opening settings, Routine e := by
  unfold opening
  split <;> simp [Routine, Event.isRoutine]

end Export

end DialogueExport
