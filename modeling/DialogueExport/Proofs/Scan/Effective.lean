import DialogueExport.Proofs.Scan.Simulation
import Mathlib.Logic.Relation

/-!
# What a scan depends on

Some instructions are inert: those without a meaning, commands that direct nobody, and options if
they are not captured.  They deliver nothing and leave the scene as it is (`emissions_of_isInert`,
`advance_of_isInert`), so a stream delivers what it delivers without them, under the names of other
nodes at most (`map_said_deliveries`).  Two programs with the same texts and the same effective
instructions are therefore scanned alike, delivery by delivery, and only the names of the nodes in
their observations may differ.

Where the nodes begin and end is no part of the effective instructions.  Cutting nodes, joining them
and putting inert instructions in or out keep them (`effective_of_reworked`).

Main statement: `related_of_effective`.
-/

namespace DialogueExport

/-! ## 1. Inert instructions -/

/-- The instruction neither delivers a line nor changes the scene. -/
def Instruction.isInert (settings : ScanSettings) : Instruction → Bool
  | .other _ => true
  | .command text => Direction.ofText text = .other
  | .option _ => !settings.captureOptions
  | .line _ | .showOptions => false

namespace Scan

/-- The instructions that are not inert, in order. -/
def effective (settings : ScanSettings) (is : List Instruction) : List Instruction :=
  is.filter fun i => !i.isInert settings

variable {settings : ScanSettings} {textOf : String → String}

theorem advance_of_isInert {i : Instruction} (hi : i.isInert settings = true) (scene : Scene) :
    scene.advance settings i = scene := by
  cases i with
  | line code => cases hi
  | option code =>
    have hc : settings.captureOptions = false := by simpa [Instruction.isInert] using hi
    simp [Scene.advance, hc]
  | showOptions => cases hi
  | command text =>
    have hd : Direction.ofText text = .other := of_decide_eq_true hi
    simp [Scene.advance, hd]
  | other opcode => rfl

theorem emissions_of_isInert {i : Instruction} (hi : i.isInert settings = true) (scene : Scene)
    (node : String) : scene.emissions settings textOf node i = [] := by
  cases i with
  | line code => cases hi
  | showOptions => cases hi
  | option | command | other => rfl

/-! ## 2. What is said -/

/-- Two observations differ in their nodes at most. -/
def SameSpeech (o o' : Observation) : Prop := o.text = o'.text ∧ o.speaker = o'.speaker

/-- A delivery without the node in which it takes place. -/
def said (e : Emission) : String × String × String :=
  (e.code, e.observation.text, e.observation.speaker)

theorem map_said_emissions (scene : Scene) (node node' : String) (i : Instruction) :
    (scene.emissions settings textOf node i).map said =
      (scene.emissions settings textOf node' i).map said := by
  simp [Scene.emissions, said, Function.comp_def]

/-- A stream says what its effective instructions say, in whichever node. -/
theorem map_said_deliveries (node : String) (stream : List (String × Instruction)) (scene : Scene) :
    (scene.deliveries settings textOf stream).map said =
      (scene.deliveries settings textOf
        ((effective settings (stream.map Prod.snd)).map (Prod.mk node))).map said := by
  induction stream generalizing scene with
  | nil => rfl
  | cons s stream ih =>
    obtain ⟨name, i⟩ := s
    cases hi : i.isInert settings with
    | true =>
      have heff : effective settings (i :: stream.map Prod.snd) =
          effective settings (stream.map Prod.snd) := by
        simp [effective, hi]
      rw [Scene.deliveries, emissions_of_isInert hi, advance_of_isInert hi, List.nil_append,
        List.map_cons, heff]
      exact ih scene
    | false =>
      have heff : effective settings (i :: stream.map Prod.snd) =
          i :: effective settings (stream.map Prod.snd) := by
        simp [effective, hi]
      rw [List.map_cons, heff, List.map_cons, Scene.deliveries, Scene.deliveries, List.map_append,
        List.map_append, map_said_emissions scene name node, ih]

theorem forall₂_of_map_said {es es' : List Emission} (h : es.map said = es'.map said) :
    List.Forall₂ (Emission.Rel SameSpeech) es es' := by
  rw [← List.forall₂_eq_eq_eq, List.forall₂_map_left_iff, List.forall₂_map_right_iff] at h
  refine h.imp fun e e' he => ?_
  obtain ⟨hcode, htext, hspeaker⟩ : e.code = e'.code ∧
      e.observation.text = e'.observation.text ∧
      e.observation.speaker = e'.observation.speaker := by
    simpa [said] using he
  exact ⟨hcode, htext, hspeaker⟩

/-! ## 3. Reworking nodes -/

/-- One change of the nodes of a program, each given by its instructions. -/
inductive Rework (settings : ScanSettings) :
    List (List Instruction) → List (List Instruction) → Prop
  /-- A node is cut in two. -/
  | cut (before after : List (List Instruction)) (is js : List Instruction) :
      Rework settings (before ++ (is ++ js) :: after) (before ++ is :: js :: after)
  /-- An inert instruction is put in. -/
  | insert (before after : List (List Instruction)) (is js : List Instruction) {i : Instruction}
      (hi : i.isInert settings = true) :
      Rework settings (before ++ (is ++ js) :: after) (before ++ (is ++ i :: js) :: after)

/-- The nodes of one program come from those of the other by cutting and joining nodes and by
putting inert instructions in and out, any number of times. -/
def Reworked (settings : ScanSettings) (p q : Program) : Prop :=
  Relation.EqvGen (Rework settings) (p.nodes.values.map Node.instructions)
    (q.nodes.values.map Node.instructions)

theorem effective_of_rework {bodies bodies' : List (List Instruction)}
    (h : Rework settings bodies bodies') :
    effective settings bodies.flatten = effective settings bodies'.flatten := by
  cases h with
  | cut before after is js => simp
  | insert before after is js hi => simp [effective, hi]

theorem effective_of_eqvGen {bodies bodies' : List (List Instruction)}
    (h : Relation.EqvGen (Rework settings) bodies bodies') :
    effective settings bodies.flatten = effective settings bodies'.flatten := by
  induction h with
  | rel _ _ h => exact effective_of_rework h
  | refl _ => rfl
  | symm _ _ _ ih => exact ih.symm
  | trans _ _ _ _ _ ih₁ ih₂ => exact ih₁.trans ih₂

theorem effective_of_reworked {p q : Program} (h : Reworked settings p q) :
    effective settings p.instructions = effective settings q.instructions := by
  rw [Program.instructions, Program.instructions, List.flatMap_def, List.flatMap_def]
  exact effective_of_eqvGen h

/-! ## 4. Programs with the same effective instructions -/

theorem forall₂_deliveries {p q : Program} (hs : p.strings = q.strings)
    (he : effective settings p.instructions = effective settings q.instructions) :
    List.Forall₂ (Emission.Rel SameSpeech) (p.deliveries settings) (q.deliveries settings) := by
  have htext : p.textOf = q.textOf := by
    funext code
    rw [Program.textOf, Program.textOf, hs]
  refine forall₂_of_map_said ?_
  rw [Program.deliveries, Program.deliveries, map_said_deliveries "",
    map_said_deliveries "" q.stream, p.map_snd_stream, q.map_snd_stream, he, htext]

/-- **What a scan depends on.**  Two programs with the same string table and the same effective
instructions are scanned alike: both scans fail at the same code, or both come to their end with the
same lines in the same order, under the same texts and speakers, and with the same repeats.  In
particular this holds if the nodes of one come from those of the other by cutting, joining and
putting inert instructions in or out. -/
theorem related_of_effective (p q : Program) (file file' : FilePath) (settings : ScanSettings)
    (hs : p.strings = q.strings) :
    (effective settings p.instructions = effective settings q.instructions →
      Related SameSpeech file file' (p.scan file settings).outcome
        (q.scan file' settings).outcome) ∧
    (Reworked settings p q →
      Related SameSpeech file file' (p.scan file settings).outcome
        (q.scan file' settings).outcome) :=
  ⟨fun he => related_scan rfl (forall₂_deliveries hs he),
    fun hw => related_scan rfl (forall₂_deliveries hs (effective_of_reworked hw))⟩

/-! A node is cut behind the speaker's entrance, in front of an option, and two instructions are put
in that direct nobody: the option is still shown to the same speaker. -/

namespace Example

def ferry : Program :=
  ⟨Table.ofEntries [("Quay", ⟨"Quay", [],
      [.command "Show NPC Port/Aria", .line "line:1", .option "line:2", .showOptions]⟩)],
    Table.ofEntries [("line:1", "Ahoy!")], Table.empty⟩

def ferryInTwo : Program :=
  ⟨Table.ofEntries [
      ("Pier", ⟨"Pier", ["act1"],
        [.command "Show NPC Port/Aria", .command "wait 2", .line "line:1"]⟩),
      ("Deck", ⟨"Deck", [], [.option "line:2", .other "Jump", .showOptions]⟩)],
    Table.ofEntries [("line:1", "Ahoy!")], Table.empty⟩

/-- Options count as lines, and no line may come twice. -/
def once : ScanSettings := { captureOptions := true, onRepeat := .abort }

theorem reworked_ferry : Reworked once ferry ferryInTwo := by
  have hwait : (Instruction.command "wait 2").isInert once = true := by decide +kernel
  have hjump : (Instruction.other "Jump").isInert once = true := rfl
  refine .trans _ _ _ (.rel _ _ (.insert [] [] [.command "Show NPC Port/Aria"]
    [.line "line:1", .option "line:2", .showOptions] hwait)) ?_
  refine .trans _ _ _ (.rel _ _ (.insert [] [] [.command "Show NPC Port/Aria", .command "wait 2",
    .line "line:1", .option "line:2"] [.showOptions] hjump)) ?_
  exact .rel _ _ (.cut [] [] [.command "Show NPC Port/Aria", .command "wait 2", .line "line:1"]
    [.option "line:2", .other "Jump", .showOptions])

theorem related_of_effective_ferry :
    Reworked once ferry ferryInTwo ∧
      effective once ferry.instructions = effective once ferryInTwo.instructions ∧
      Related SameSpeech ⟨"story.json"⟩ ⟨"story.json"⟩ (ferry.scan ⟨"story.json"⟩ once).outcome
        (ferryInTwo.scan ⟨"story.json"⟩ once).outcome := by
  have heff : effective once ferry.instructions = effective once ferryInTwo.instructions := by
    decide +kernel
  exact ⟨reworked_ferry, heff,
    (related_of_effective ferry ferryInTwo ⟨"story.json"⟩ ⟨"story.json"⟩ once rfl).1 heff⟩

end Example

end Scan

end DialogueExport
