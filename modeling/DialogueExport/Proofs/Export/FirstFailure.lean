import DialogueExport.Proofs.Export.OneFile
import DialogueExport.Proofs.Export.Routine

/-!
# A run that fails

A run takes its files one after the other, so a run over two lists is a run over the first, followed by
one over the second from where the first has left the disk (`exportFrom_append`).  What it reports of its
files is routine; only its last events say how it ended (`exists_routine_exportFrom`): the failure, or
which files have lines without a line code.  The first file that fails therefore ends the run with its
failure as the last event, and what comes after it in the list makes no difference.

Main statement: `run_of_fails`.
-/

namespace DialogueExport

open Event (Routine)

namespace Export

variable {settings : Settings} {fs : FileSystem} {files : List FilePath} {done s : Summary}
  {e : ExportError}

/-! ## 1. How a run ends -/

/-- What is reported at the end of a run. -/
def closing : Except ExportError Summary → List Event
  | .ok s => s.tally.events
  | .error e => [.failed e]

/-- What a run reports of its files is routine. -/
theorem exists_routine_exportFrom (settings : Settings) (fs : FileSystem) (done : Summary)
    (files : List FilePath) :
    ∃ before, (∀ ev ∈ before, Routine ev) ∧
      (exportFrom settings fs done files).events =
        before ++ closing (exportFrom settings fs done files).outcome := by
  induction files generalizing fs done with
  | nil => exact ⟨[], by simp, rfl⟩
  | cons file files ih =>
    have hfile := routine_exportFile settings fs file
    cases hout : (exportFile settings fs file).outcome with
    | error e =>
      rw [exportFrom_cons_of_error hout]
      exact ⟨_, hfile, rfl⟩
    | ok r =>
      obtain ⟨fs', path, t⟩ := r
      obtain ⟨before, hbefore, hevents⟩ := ih fs' (done.record file path t)
      rw [exportFrom_cons_of_ok hout]
      exact ⟨(exportFile settings fs file).events ++ before,
        List.forall_mem_append.mpr ⟨hfile, hbefore⟩, by simp [hevents]⟩

/-- A run that comes to its end can be gone on with: it has reported only routine events so far, and
the files that are added are exported from where it has left the disk. -/
theorem exportFrom_append (h : (exportFrom settings fs done files).outcome = .ok s) :
    ∃ before, (∀ ev ∈ before, Routine ev) ∧
      ∀ more, exportFrom settings fs done (files ++ more) =
        (exportFrom settings (exportFrom settings fs done files).disk s more).after before := by
  induction files generalizing fs done with
  | nil =>
    obtain rfl := Except.ok.inj h
    exact ⟨[], by simp, fun more => rfl⟩
  | cons file files ih =>
    obtain ⟨fs', path, t, hout, hrest⟩ := exists_of_exportFrom_cons h
    obtain ⟨before, hbefore, hmore⟩ := ih hrest
    refine ⟨(exportFile settings fs file).events ++ before,
      List.forall_mem_append.mpr ⟨routine_exportFile settings fs file, hbefore⟩, fun more => ?_⟩
    rw [List.cons_append, exportFrom_cons_of_ok hout, exportFrom_cons_of_ok hout, hmore,
      Run.after_after, Run.disk_after]

theorem exists_routine_run (settings : Settings) (fs : FileSystem) (files : List FilePath) :
    ∃ before, (∀ ev ∈ before, Routine ev) ∧
      (run settings fs files).events = before ++ closing (run settings fs files).outcome := by
  obtain ⟨before, hbefore, hevents⟩ := exists_routine_exportFrom settings fs Summary.empty files
  exact ⟨opening settings ++ before,
    List.forall_mem_append.mpr ⟨routine_opening settings, hbefore⟩, by simp [run, hevents]⟩

theorem run_append (h : (run settings fs files).outcome = .ok s) :
    ∃ before, (∀ ev ∈ before, Routine ev) ∧
      ∀ more, run settings fs (files ++ more) =
        (exportFrom settings (run settings fs files).disk s more).after before := by
  obtain ⟨before, hbefore, hmore⟩ := @exportFrom_append settings fs files Summary.empty s h
  exact ⟨opening settings ++ before,
    List.forall_mem_append.mpr ⟨routine_opening settings, hbefore⟩,
    fun more => by simp [run, hmore]⟩

/-! ## 2. The first file that fails -/

/-- A run that comes to its end reports no error. -/
theorem level_ne_error_of_run (h : (run settings fs files).outcome = .ok s) :
    ∀ ev ∈ (run settings fs files).events, ev.level ≠ .error := by
  obtain ⟨before, hbefore, hevents⟩ := exists_routine_run settings fs files
  rw [hevents, h]
  refine List.forall_mem_append.mpr ⟨fun ev hev => (hbefore ev hev).level_ne, ?_⟩
  simp only [closing, Untagged.Tally.events]
  split <;> simp [Event.level]

/-- If the files before a file come to their ends and the file itself fails, nothing behind it counts. -/
theorem exists_run_of_fails {file : FilePath} (hdone : (run settings fs files).outcome = .ok s)
    (hfile : Fails settings (run settings fs files).disk file e) :
    ∃ before, (∀ ev ∈ before, Routine ev) ∧ ∀ rest,
      run settings fs (files ++ file :: rest) =
        ⟨(run settings fs files).disk, before ++ [.failed e], .error e⟩ := by
  obtain ⟨before, hbefore, hmore⟩ := run_append hdone
  refine ⟨before ++ (exportFile settings (run settings fs files).disk file).events,
    List.forall_mem_append.mpr ⟨hbefore, routine_exportFile settings _ file⟩, fun rest => ?_⟩
  rw [hmore, exportFrom_cons_of_error (exportFile_eq_error_iff.mpr hfile), List.append_assoc]
  rfl

/-- **A run that fails.**  If the files before a file come to their ends and the file itself fails, the
run ends with its failure.  The disk is as the files before it have left it, the failure is reported
once, as the last event and in its own words, nothing is said about the run as a whole, and the files
behind it make no difference.  A run that does not fail reports no error. -/
theorem run_of_fails (settings : Settings) (fs : FileSystem) (files : List FilePath) :
    (∀ s file e, (run settings fs files).outcome = .ok s →
      Fails settings (run settings fs files).disk file e → ∀ rest,
        (run settings fs (files ++ file :: rest)).outcome = .error e ∧
        (run settings fs (files ++ file :: rest)).disk = (run settings fs files).disk ∧
        (∃ before, (run settings fs (files ++ file :: rest)).events = before ++ [.failed e] ∧
          (∀ ev ∈ before, ev.level ≠ .error) ∧
          ∀ ev ∈ before, ∀ flagged, ev ≠ .untaggedFiles flagged) ∧
        (Event.failed e).level = .error ∧ (Event.failed e).message = e.message ∧
        run settings fs (files ++ file :: rest) = run settings fs (files ++ [file])) ∧
    ∀ s, (run settings fs files).outcome = .ok s →
      ∀ ev ∈ (run settings fs files).events, ev.level ≠ .error := by
  refine ⟨fun s file e hdone hfile rest => ?_, fun s hdone => level_ne_error_of_run hdone⟩
  obtain ⟨before, hbefore, hrest⟩ := exists_run_of_fails hdone hfile
  rw [hrest rest, hrest []]
  exact ⟨rfl, rfl, ⟨before, rfl, fun ev hev => (hbefore ev hev).level_ne,
    fun ev hev => (hbefore ev hev).ne_untaggedFiles⟩, rfl, rfl, rfl⟩

/-! The second of three files is not there: the first table is written, the third file is not looked
at. -/

namespace Example

/-- A working directory with one program in it, which is empty. -/
def berth : FileSystem :=
  ⟨Table.ofEntries [([['w']], .directory), ([['w'], "quay.json".toList], .file "{}".toUTF8)], [['w']]⟩

theorem run_of_fails_berth :
    ∃ fault,
      Fails {} (run {} berth [⟨"quay.json"⟩]).disk ⟨"ship.json"⟩ (.io ⟨"ship.json"⟩ fault) ∧
        (run {} berth [⟨"quay.json"⟩, ⟨"ship.json"⟩, ⟨"reef.json"⟩]).outcome =
          .error (.io ⟨"ship.json"⟩ fault) ∧
        (run {} berth [⟨"quay.json"⟩, ⟨"ship.json"⟩, ⟨"reef.json"⟩]).disk =
          (run {} berth [⟨"quay.json"⟩]).disk := by
  have hwritten : (run {} berth [⟨"quay.json"⟩]).outcome.toOption.map Summary.written =
      some [⟨"quay_lines.csv"⟩] := by decide +kernel
  obtain ⟨s, hs, -⟩ := Option.map_eq_some_iff.mp hwritten
  have hdone : (run {} berth [⟨"quay.json"⟩]).outcome = .ok s := toOption_eq_some_iff.mp hs
  have hmissing : ((run {} berth [⟨"quay.json"⟩]).disk.readText ⟨"ship.json"⟩).toOption = none := by
    decide +kernel
  obtain ⟨fault, hfault⟩ := toOption_eq_none_iff.mp hmissing
  have hfile : Fails {} (run {} berth [⟨"quay.json"⟩]).disk ⟨"ship.json"⟩
      (.io ⟨"ship.json"⟩ fault) := .load (by rw [FileSystem.loadProgram, hfault])
  obtain ⟨hout, hdisk, -⟩ :=
    (run_of_fails {} berth [⟨"quay.json"⟩]).1 s ⟨"ship.json"⟩ _ hdone hfile [⟨"reef.json"⟩]
  exact ⟨fault, hfile, hout, hdisk⟩

end Example

end Export

end DialogueExport
