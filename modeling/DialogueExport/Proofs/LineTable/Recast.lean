import DialogueExport.Proofs.LineTable.Failure
import DialogueExport.Proofs.Scan.Simulation

/-!
# Another speaker for options

The name that speaks once options are shown is a setting.  Two runs that differ in nothing but this
setting are compared, with `a` for the name in the first and `b` for the name in the second.  A speaker
is then the same in both, or he is `a` in the first and `b` in the second (`Recast`).  Every instruction
keeps this of the scene: showing options brings it about, and entrances and exits say the same in both
runs (`Scene.Recast.advance`).  So the deliveries are alike one by one, and the ledgers with them
(`Scene.Recast.deliveries`).

Nothing that is decided on the way looks at a speaker.  Which lines come again, which owners are known
and which lines have a row is the same in both runs, and so are the texts (`draft_eq_of_rel`).  Only the
characters of the rows are read from the ledgers.

It makes no difference whether one of the names is empty, or is the name of somebody who enters: such a
speaker stays who he is.

Main statement: `recast_of_ofProgram`.
-/

namespace DialogueExport

/-! ## 1. Scenes that are alike -/

/-- The same speaker, or `a` in the one run and `b` in the other. -/
def Recast (a b : String) (speaker speaker' : String) : Prop :=
  speaker = speaker' ∨ speaker = a ∧ speaker' = b

theorem recast_self {a b : String} (speaker : String) : Recast a b speaker speaker := Or.inl rfl

theorem recast_names {a b : String} : Recast a b a b := Or.inr ⟨rfl, rfl⟩

/-- The same text was heard in the same node. -/
structure Observation.Recast (a b : String) (o o' : Observation) : Prop where
  text : o.text = o'.text
  node : o.node = o'.node
  speaker : DialogueExport.Recast a b o.speaker o'.speaker

/-- The same options wait. -/
structure Scene.Recast (a b : String) (scene scene' : Scene) : Prop where
  pending : scene.pending = scene'.pending
  speaker : DialogueExport.Recast a b scene.speaker scene'.speaker

namespace Scene

variable {a b : String} {scene scene' : Scene}

theorem recast_start : start.Recast a b start := ⟨rfl, recast_self ""⟩

/-- An instruction keeps scenes alike. -/
theorem Recast.advance (h : scene.Recast a b scene') (settings : ScanSettings) (i : Instruction) :
    (scene.advance { settings with optionsSpeaker := a } i).Recast a b
      (scene'.advance { settings with optionsSpeaker := b } i) := by
  cases i with
  | line code => exact h
  | option code =>
    simp only [Scene.advance]
    split
    · exact ⟨congrArg (· ++ [code]) h.pending, h.speaker⟩
    · exact h
  | showOptions => exact ⟨rfl, recast_names⟩
  | command text =>
    simp only [Scene.advance]
    cases Direction.ofText text with
    | enter name => exact ⟨h.pending, recast_self name⟩
    | leave => exact ⟨h.pending, recast_self ""⟩
    | other => exact h
  | other opcode => exact h

theorem Recast.delivers_eq (h : scene.Recast a b scene') (i : Instruction) :
    scene.delivers i = scene'.delivers i := by
  cases i with
  | showOptions => exact h.pending
  | line | option | command | other => rfl

/-- An instruction delivers alike in scenes that are alike. -/
theorem Recast.emissions (h : scene.Recast a b scene') (settings : ScanSettings)
    (textOf : String → String) (node : String) (i : Instruction) :
    List.Forall₂ (Emission.Rel (Observation.Recast a b))
      (scene.emissions { settings with optionsSpeaker := a } textOf node i)
      (scene'.emissions { settings with optionsSpeaker := b } textOf node i) := by
  rw [Scene.emissions, Scene.emissions, h.delivers_eq, List.forall₂_map_left_iff,
    List.forall₂_map_right_iff, List.forall₂_same]
  intro code _
  exact ⟨rfl, rfl, rfl, (h.advance settings i).speaker⟩

/-- And so does a whole stream, since the scenes stay alike. -/
theorem Recast.deliveries (h : scene.Recast a b scene') (settings : ScanSettings)
    (textOf : String → String) (stream : List (String × Instruction)) :
    List.Forall₂ (Emission.Rel (Observation.Recast a b))
      (scene.deliveries { settings with optionsSpeaker := a } textOf stream)
      (scene'.deliveries { settings with optionsSpeaker := b } textOf stream) := by
  induction stream generalizing scene scene' with
  | nil => exact .nil
  | cons s stream ih =>
    obtain ⟨node, i⟩ := s
    rw [Scene.deliveries, Scene.deliveries]
    exact List.rel_append (h.emissions settings textOf node i) (ih (h.advance settings i))

end Scene

namespace Scan

/-- Both scans fail at the same code, or their ledgers differ in such speakers only. -/
theorem related_scan_recast (p : Program) (file : FilePath) (settings : ScanSettings)
    (a b : String) :
    Related (Observation.Recast a b) file file
      (p.scan file { settings with optionsSpeaker := a }).outcome
      (p.scan file { settings with optionsSpeaker := b }).outcome :=
  related_scan rfl (Scene.recast_start.deliveries settings p.textOf p.stream)

end Scan

/-! ## 2. Tables that are alike -/

/-- The rows differ in their characters at most. -/
structure Row.Recast (a b : String) (r r' : Row) : Prop where
  code : r.code = r'.code
  text : r.text = r'.text
  comment : r.comment = r'.comment
  character : DialogueExport.Recast a b r.character r'.character

namespace LineTable

/-- Both runs fail in the same way, or both make tables with the same untagged entries and with rows
that are alike, one by one. -/
inductive Recast (a b : String) :
    Except ExportError LineTable → Except ExportError LineTable → Prop
  | failed (e : ExportError) : Recast a b (.error e) (.error e)
  | made {t t' : LineTable} (untagged : t.untagged = t'.untagged)
      (rows : List.Forall₂ (Row.Recast a b) t.rows t'.rows) : Recast a b (.ok t) (.ok t')

variable {a b : String} {p : Program} {file : FilePath} {sel : Selection} {ledger ledger' : Ledger}

/-- The seed does not know who spoke. -/
theorem seed_eq_of_rel (h : ledger.Rel (Observation.Recast a b) ledger') :
    seed p ledger sel = seed p ledger' sel := by
  have hentries : (seed p ledger sel).entries = (seed p ledger' sel).entries := by
    rw [← List.forall₂_eq_eq_eq]
    refine List.rel_filterMap ?_ h.entries
    rintro ⟨code, o⟩ ⟨code', o'⟩ ⟨hcode, ho⟩
    obtain rfl : code = code' := hcode
    have htext : o.text = o'.text := ho.text
    have hnode : o.node = o'.node := ho.node
    simp only [htext, hnode]
    split
    · exact .some rfl
    · exact .none
  cases hs : seed p ledger sel
  cases hs' : seed p ledger' sel
  simpa [hs, hs'] using hentries

theorem draft_eq_of_rel (h : ledger.Rel (Observation.Recast a b) ledger') :
    draft p ledger sel = draft p ledger' sel := by
  rw [draft, draft, seed_eq_of_rel h]

/-- A line that was not heard has nobody to speak it in both runs. -/
theorem recast_speaker {o o' : Option Observation}
    (h : Option.Rel (Observation.Recast a b) o o') :
    DialogueExport.Recast a b ((o.map Observation.speaker).getD "")
      ((o'.map Observation.speaker).getD "") := by
  cases h with
  | some ho => exact ho.speaker
  | none => exact recast_self ""

theorem recast_rowOf (h : ledger.Rel (Observation.Recast a b) ledger') (code text : String) :
    (rowOf ledger code text).Recast a b (rowOf ledger' code text) :=
  ⟨rfl, rfl, rfl, recast_speaker (h.get? code)⟩

theorem recast_build (h : ledger.Rel (Observation.Recast a b) ledger') :
    Recast a b (build p file ledger sel).outcome (build p file ledger' sel).outcome := by
  cases hb : (build p file ledger sel).outcome with
  | error e =>
    -- Why there is no table is a matter of the program alone.
    have hb' : (build p file ledger' sel).outcome = .error e :=
      outcome_build_eq_error_iff.mpr (outcome_build_eq_error_iff.mp hb)
    rw [hb']
    exact .failed e
  | ok t =>
    obtain ⟨howners, rfl⟩ := build_eq_ok_iff.mp hb
    have hb' : (build p file ledger' sel).outcome = .ok (table p ledger' sel) :=
      build_eq_ok_iff.mpr ⟨howners, rfl⟩
    rw [hb']
    refine .made ?_ ?_
    · rw [table, table, draft_eq_of_rel h]
    · rw [table, table, draft_eq_of_rel h, List.forall₂_map_left_iff, List.forall₂_map_right_iff,
        List.forall₂_same]
      intro e _
      exact recast_rowOf h e.1 e.2

/-- What is made of ledgers that are alike is alike, and a scan that failed is all there is. -/
theorem recast_of_related {x y : Except ExportError Ledger}
    (h : Scan.Related (Observation.Recast a b) file file x y) :
    Recast a b (x >>= fun ledger => (build p file ledger sel).outcome)
      (y >>= fun ledger => (build p file ledger sel).outcome) := by
  cases h with
  | repeated code => exact .failed _
  | scanned h => exact recast_build h

/-- **Another speaker for options.**  If options are spoken by `b` in place of `a`, and nothing else
changes, a program is refused for the same reason or makes a table as before.  The untagged entries are
the same, and there are as many rows.  A row has the code, the text and the comment that it had, and
either the character that it had or `b` where it had `a`. -/
theorem recast_of_ofProgram (p : Program) (file : FilePath) (sel : Selection)
    (settings : ScanSettings) (a b : String) :
    Recast a b (ofProgram p file sel { settings with optionsSpeaker := a }).outcome
      (ofProgram p file sel { settings with optionsSpeaker := b }).outcome := by
  simp only [ofProgram, Logged.outcome_bind, Logged.outcome_report]
  exact recast_of_related (Scan.related_scan_recast p file settings a b)

/-! Fennel enters and says the first line, and stays when options are spoken by somebody else; the line
after the options is not his any more. -/

namespace Example

def mooring : Program :=
  ⟨Table.ofEntries [("Quay", ⟨"Quay", [],
      [.command "Show NPC Port/Fennel", .line "line:1", .showOptions, .line "line:2"]⟩)],
    Table.empty, Table.empty⟩

example :
    (ofProgram mooring ⟨"story.json"⟩ Selection.all { optionsSpeaker := "Fennel" }).outcome.map
        (fun t => t.rows.map Row.character) = .ok ["Fennel", "Fennel"] ∧
      (ofProgram mooring ⟨"story.json"⟩ Selection.all { optionsSpeaker := "" }).outcome.map
        (fun t => t.rows.map Row.character) = .ok ["Fennel", ""] := by
  decide +kernel

end Example

end LineTable

end DialogueExport
