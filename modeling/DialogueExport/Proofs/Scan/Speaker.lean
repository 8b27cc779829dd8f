import DialogueExport.Proofs.Scan.Position

/-!
# Who speaks a line

A scan carries the speaker along, in the scene.  Here he is found by looking back: a line is spoken
by whoever the last instruction before it has set that sets a speaker at all, and options are
spoken by whoever is set when they are shown (`speakerAt`).  Where a node begins or ends is no part
of this, as only the instructions of all nodes in a row are looked at.

Main statement: `speaker?_of_scan`.
-/

namespace DialogueExport

namespace Scan

/-- The speaker that an instruction sets, if it sets one. -/
def voice (settings : ScanSettings) : Instruction → Option String
  | .showOptions => some settings.optionsSpeaker
  | .command text =>
    match Direction.ofText text with
    | .enter name => some name
    | .leave => some ""
    | .other => none
  | _ => none

/-- The speaker that was set last; nobody if none was set. -/
def lastVoice (settings : ScanSettings) (is : List Instruction) : String :=
  (is.filterMap (voice settings)).getLast?.getD ""

/-- Who speaks what is delivered at position `k`. -/
def speakerAt (settings : ScanSettings) (is : List Instruction) (k : Nat) : String :=
  if is[k]? = some .showOptions then lastVoice settings (is.take (k + 1))
  else lastVoice settings (is.take k)

variable {settings : ScanSettings}

theorem lastVoice_concat (is : List Instruction) (i : Instruction) :
    lastVoice settings (is ++ [i]) = (voice settings i).getD (lastVoice settings is) := by
  rw [lastVoice, List.filterMap_append]
  cases h : voice settings i with
  | none => simp [h, lastVoice]
  | some name => simp [h]

theorem speaker_advance (scene : Scene) (i : Instruction) :
    (scene.advance settings i).speaker = (voice settings i).getD scene.speaker := by
  cases i with
  | line code => rfl
  | option code =>
    simp only [Scene.advance]
    split <;> rfl
  | showOptions => rfl
  | command text =>
    simp only [Scene.advance, voice]
    cases Direction.ofText text <;> rfl
  | other opcode => rfl

/-- The scene knows the last speaker that was set. -/
theorem speaker_after (is : List Instruction) :
    (Scene.start.after settings is).speaker = lastVoice settings is := by
  induction is using List.reverseRecOn with
  | nil => rfl
  | append_singleton is i ih => rw [Scene.after_concat, speaker_advance, ih, lastVoice_concat]

/-- A line of its own does not change who speaks. -/
theorem lastVoice_take_succ_of_line {is : List Instruction} {k : Nat} {code : String}
    (hk : is[k]? = some (.line code)) :
    lastVoice settings (is.take (k + 1)) = lastVoice settings (is.take k) := by
  rw [List.take_add_one, hk, Option.toList_some, lastVoice_concat]
  rfl

theorem speakerAt_of_deliversAt {is : List Instruction} {code : String} {k : Nat}
    (hk : DeliversAt settings is code k) :
    speakerAt settings is k = lastVoice settings (is.take (k + 1)) := by
  rcases hk with hk | ⟨-, hk, -⟩
  · rw [speakerAt, hk, if_neg (by simp), lastVoice_take_succ_of_line hk]
  · rw [speakerAt, if_pos hk]

/-- **Who speaks a line.**  After a scan exactly the lines are known that are delivered somewhere,
and the speaker of each is whoever spoke where it was delivered first. -/
theorem speaker?_of_scan {p : Program} {file : FilePath} {ledger : Ledger}
    (h : (p.scan file settings).outcome = .ok ledger) :
    (∀ code, code ∈ ledger.observations.keys ↔
        ∃ k, FirstDelivery settings p.instructions code k) ∧
      ∀ code k, FirstDelivery settings p.instructions code k →
        ledger.speaker? code = some (speakerAt settings p.instructions k) := by
  refine ⟨fun code => mem_keys_iff_firstDelivery h, fun code k hk => ?_⟩
  obtain ⟨s, -, ho⟩ := get?_of_firstDelivery h hk
  rw [Ledger.speaker?, ho, speakerAt_of_deliversAt hk.1, ← speaker_after]
  rfl

/-! A speaker who enters in one node speaks in the next one, and an option that was queued while
she was there is spoken by whoever speaks when it is shown. -/

namespace Example

def harbour : Program :=
  ⟨Table.ofEntries [
      ("Quay", ⟨"Quay", [], [.command "Show NPC Port/Aria", .option "line:1", .line "line:2"]⟩),
      ("Ship", ⟨"Ship", [], [.line "line:3", .command "Hide NPC", .showOptions, .line "line:2"]⟩)],
    Table.empty, Table.empty⟩

def captured : ScanSettings := { captureOptions := true }

theorem speaker?_of_scan_harbour :
    ∃ ledger, (harbour.scan ⟨"story.json"⟩ captured).outcome = .ok ledger ∧
      FirstDelivery captured harbour.instructions "line:3" 3 ∧
      ledger.speaker? "line:3" = some "Aria" ∧
      FirstDelivery captured harbour.instructions "line:1" 5 ∧
      ledger.speaker? "line:1" = some "Fennel" := by
  have h : (harbour.scan ⟨"story.json"⟩ captured).outcome = .ok _ := outcome_scan_of_keepFirst rfl
  have h3 : FirstDelivery captured harbour.instructions "line:3" 3 := by decide
  have h1 : FirstDelivery captured harbour.instructions "line:1" 5 := by decide
  have hs3 : speakerAt captured harbour.instructions 3 = "Aria" := by decide +kernel
  have hs1 : speakerAt captured harbour.instructions 5 = "Fennel" := by decide +kernel
  exact ⟨_, h, h3, hs3 ▸ (speaker?_of_scan h).2 "line:3" 3 h3, h1,
    hs1 ▸ (speaker?_of_scan h).2 "line:1" 5 h1⟩

end Example

end Scan

end DialogueExport
