import DialogueExport.Proofs.Scan.Repeats

/-!
# Capturing options leaves other lines alone

One program is scanned twice, and only one of the scans captures options.  Wherever the two stand, the
same person speaks, and options wait in the one scene only (`Scene.Beside`).  So a step of the scan that
captures delivers what the other delivers and, if it is the one that shows options, these besides
(`Scene.Beside.emissions`).  What the one scan has beyond the other are options (`Emission.AddsOnly`), and
adding is closed under appending, so this holds along any stream (`Scene.Beside.deliveries`).

An option may come before the line that has its code, and takes its place then.  A ledger in which one
looks for some lines only cannot see this: it is the ledger of their deliveries (`Ledger.only_addAll`).
As options are not among them, the two ledgers look alike.

Main statement: `captured_beside_plain`.
-/

namespace DialogueExport

variable {P : String → Bool}

/-! ## 1. A ledger seen through some lines -/

namespace Ledger

/-- What a ledger says about the lines with a property. -/
def only (P : String → Bool) (l : Ledger) : Ledger :=
  ⟨⟨l.observations.entries.filter fun e => P e.1, l.observations.nodup_filter_entries _⟩,
    l.repeats.filter P⟩

theorem eq_of_entries {l l' : Ledger} (he : l.observations.entries = l'.observations.entries)
    (hr : l.repeats = l'.repeats) : l = l' := by
  obtain ⟨observations, repeats⟩ := l
  obtain ⟨observations', repeats'⟩ := l'
  obtain rfl : observations = observations' := Table.ext he
  obtain rfl : repeats = repeats' := hr
  rfl

theorem keys_only (l : Ledger) : (l.only P).observations.keys = l.observations.keys.filter P := by
  rw [Table.keys, Table.keys, only, List.filter_map]
  rfl

theorem get?_only {l : Ledger} {code : String} (hP : P code = true) :
    (l.only P).observations.get? code = l.observations.get? code := by
  refine Option.ext fun o => ?_
  rw [← Table.mem_entries_iff, ← Table.mem_entries_iff, only, List.mem_filter]
  exact and_iff_left hP

/-- A delivery of one of the lines is entered, a delivery of another is not seen. -/
theorem only_add (l : Ledger) (e : Emission) :
    (l.add e).only P = if P e.code then (l.only P).add e else l.only P := by
  have hkeys : P e.code = true →
      (e.code ∈ (l.only P).observations.keys ↔ e.code ∈ l.observations.keys) := by
    intro hP
    rw [keys_only, List.mem_filter]
    exact and_iff_left hP
  -- The line may be known or new, and it may be looked for or not.
  by_cases hm : e.code ∈ l.observations.keys
  · rw [add_of_mem hm]
    split
    · next hP =>
      rw [add_of_mem ((hkeys hP).mpr hm)]
      exact eq_of_entries rfl (by simp [only, List.filter_append, hP])
    · next hP => exact eq_of_entries rfl (by simp [only, List.filter_append, hP])
  · rw [add_of_not_mem hm]
    split
    · next hP =>
      have hm' : e.code ∉ (l.only P).observations.keys := fun h => hm ((hkeys hP).mp h)
      rw [add_of_not_mem hm']
      refine eq_of_entries ?_ rfl
      rw [Table.entries_insert_of_not_mem _ hm']
      simp [only, Table.entries_insert_of_not_mem _ hm, List.filter_append, hP]
    · next hP =>
      refine eq_of_entries ?_ rfl
      simp [only, Table.entries_insert_of_not_mem _ hm, List.filter_append, hP]

/-- Ledgers that look alike for some lines have the same observations of them. -/
theorem get?_eq_of_only_eq {l l' : Ledger} (h : l.only P = l'.only P) {code : String}
    (hP : P code = true) : l.observations.get? code = l'.observations.get? code := by
  rw [← get?_only hP, h, get?_only hP]

theorem count_repeats_eq_of_only_eq {l l' : Ledger} (h : l.only P = l'.only P) {code : String}
    (hP : P code = true) : l.repeats.count code = l'.repeats.count code := by
  have hrepeats : l.repeats.filter P = l'.repeats.filter P := congrArg repeats h
  rw [← List.count_filter hP, hrepeats, List.count_filter hP]

/-- Deliveries of other lines make no difference. -/
theorem only_addAll (l : Ledger) (es : List Emission) :
    (l.addAll es).only P = (l.only P).addAll (es.filter fun e => P e.code) := by
  induction es generalizing l with
  | nil => rfl
  | cons e es ih =>
    have hstep : (l.addAll (e :: es)).only P = ((l.add e).addAll es).only P := rfl
    rw [hstep, ih, only_add]
    by_cases hP : P e.code = true
    · rw [if_pos hP, List.filter_cons_of_pos (by simpa using hP)]
      rfl
    · rw [if_neg hP, List.filter_cons_of_neg (by simpa using hP)]

end Ledger

/-! ## 2. Deliveries that are added -/

/-- The second deliveries are among the first, in the same order, and all lines with a property that the
first have are from there. -/
structure Emission.AddsOnly (P : String → Bool) (es es' : List Emission) : Prop where
  sublist : es'.Sublist es
  filter_eq : (es.filter fun e => P e.code) = es'.filter fun e => P e.code

namespace Emission.AddsOnly

theorem refl (es : List Emission) : AddsOnly P es es := ⟨List.Sublist.refl es, rfl⟩

theorem of_forall {es : List Emission} (h : ∀ e ∈ es, P e.code = false) : AddsOnly P es [] where
  sublist := List.nil_sublist es
  filter_eq := List.filter_eq_nil_iff.mpr fun e he => by simp [h e he]

theorem append {es es' fs fs' : List Emission} (h : AddsOnly P es es') (h' : AddsOnly P fs fs') :
    AddsOnly P (es ++ fs) (es' ++ fs') where
  sublist := h.sublist.append h'.sublist
  filter_eq := by rw [List.filter_append, List.filter_append, h.filter_eq, h'.filter_eq]

end Emission.AddsOnly

/-! ## 3. Two scenes side by side -/

namespace Scene

variable {settings settings' : ScanSettings} {scene scene' : Scene} {textOf : String → String}
  {stream : List (String × Instruction)}

/-- The same person speaks in both scenes, and no option waits in the second.  The lines that wait in the
first do not have the property. -/
structure Beside (P : String → Bool) (scene scene' : Scene) : Prop where
  speaker : scene.speaker = scene'.speaker
  pending : ∀ code ∈ scene.pending, P code = false
  idle : scene'.pending = []

theorem beside_start : Beside P start start := ⟨rfl, by simp [start], rfl⟩

namespace Beside

variable (hs : settings.optionsSpeaker = settings'.optionsSpeaker)
  (hc : settings'.captureOptions = false)

include hs in
/-- Who speaks does not depend on options being captured. -/
theorem speaker_advance_eq (h : Beside P scene scene') (i : Instruction) :
    (scene.advance settings i).speaker = (scene'.advance settings' i).speaker := by
  have hvoice : Scan.voice settings i = Scan.voice settings' i := by
    cases i <;> simp [Scan.voice, hs]
  rw [Scan.speaker_advance, Scan.speaker_advance, hvoice, h.speaker]

include hs hc in
/-- A step keeps two scenes side by side. -/
theorem advance (h : Beside P scene scene') {i : Instruction}
    (hi : ∀ code, i = .option code → P code = false) :
    Beside P (scene.advance settings i) (scene'.advance settings' i) where
  speaker := h.speaker_advance_eq hs i
  pending := by
    intro code hcode
    obtain ⟨-, hcode | ⟨-, hoption⟩⟩ := mem_pending_advance_iff.mp hcode
    · exact h.pending code hcode
    · exact hi code hoption
  idle := advance_pending_of_not_capture hc h.idle i

include hs in
/-- What the first scene delivers besides are the options that waited there. -/
theorem emissions (h : Beside P scene scene') (node : String) (i : Instruction) :
    Emission.AddsOnly P (scene.emissions settings textOf node i)
      (scene'.emissions settings' textOf node i) := by
  cases i with
  | line code =>
    have hsame : scene.emissions settings textOf node (.line code) =
        scene'.emissions settings' textOf node (.line code) := by
      rw [Scene.emissions, Scene.emissions, h.speaker_advance_eq hs]
      rfl
    rw [hsame]
    exact .refl _
  | showOptions =>
    have hnone : scene'.emissions settings' textOf node .showOptions = [] := by
      rw [Scene.emissions, delivers, h.idle, List.map_nil]
    rw [hnone]
    exact .of_forall fun e he => h.pending e.code (mem_emissions_iff.mp he).1
  | option | command | other => exact .refl _

include hs hc in
/-- Along a stream in which no option has the property, only lines without it are added. -/
theorem deliveries (h : Beside P scene scene')
    (hP : ∀ code, .option code ∈ stream.map Prod.snd → P code = false) :
    Emission.AddsOnly P (scene.deliveries settings textOf stream)
      (scene'.deliveries settings' textOf stream) := by
  induction stream generalizing scene scene' with
  | nil => exact .refl _
  | cons s stream ih =>
    obtain ⟨node, i⟩ := s
    rw [List.map_cons] at hP
    have hnext := h.advance hs hc (i := i) fun code hi => hP code (hi ▸ List.mem_cons_self)
    exact (h.emissions hs node i).append (ih hnext fun code hm => hP code (List.mem_cons_of_mem i hm))

end Beside

end Scene

/-! ## 4. Two scans of a program -/

namespace Scan

/-- **Capturing options leaves other lines alone.**  Both scans come to their ends.  What is observed
without options is observed with them.  A line that no option names is observed in both or in neither, in
the same words, by the same speaker and in the same node, and comes again equally often; and such lines
come in the same order. -/
theorem captured_beside_plain (p : Program) (file : FilePath) (speaker : String) :
    ∃ plain captured, (p.scan file ⟨speaker, false, .keepFirst⟩).outcome = .ok plain ∧
      (p.scan file ⟨speaker, true, .keepFirst⟩).outcome = .ok captured ∧
      (∀ code ∈ plain.observations.keys, code ∈ captured.observations.keys) ∧
      (∀ code, .option code ∉ p.instructions →
        (code ∈ captured.observations.keys ↔ code ∈ plain.observations.keys) ∧
        captured.observations.get? code = plain.observations.get? code ∧
        captured.repeats.count code = plain.repeats.count code) ∧
      (captured.observations.keys.filter fun code => .option code ∉ p.instructions) =
        (plain.observations.keys.filter fun code => .option code ∉ p.instructions) ∧
      (captured.repeats.filter fun code => .option code ∉ p.instructions) =
        plain.repeats.filter fun code => .option code ∉ p.instructions := by
  have hadds : Emission.AddsOnly (fun code => decide (.option code ∉ p.instructions))
      (p.deliveries ⟨speaker, true, .keepFirst⟩) (p.deliveries ⟨speaker, false, .keepFirst⟩) := by
    refine Scene.beside_start.deliveries rfl rfl fun code hm => ?_
    rw [p.map_snd_stream] at hm
    simpa using hm
  have honly : (Ledger.empty.addAll (p.deliveries ⟨speaker, true, .keepFirst⟩)).only
      (fun code => decide (.option code ∉ p.instructions)) =
        (Ledger.empty.addAll (p.deliveries ⟨speaker, false, .keepFirst⟩)).only
          (fun code => decide (.option code ∉ p.instructions)) := by
    rw [Ledger.only_addAll, Ledger.only_addAll, hadds.filter_eq]
  refine ⟨_, _, outcome_scan_of_keepFirst rfl, outcome_scan_of_keepFirst rfl, fun code hcode => ?_,
    fun code hcode => ?_, ?_, congrArg Ledger.repeats honly⟩
  · rw [Ledger.mem_keys_addAll] at hcode ⊢
    exact (hadds.sublist.map Emission.code).subset hcode
  · have hP : decide (.option code ∉ p.instructions) = true := decide_eq_true hcode
    have hget := Ledger.get?_eq_of_only_eq honly hP
    refine ⟨?_, hget, Ledger.count_repeats_eq_of_only_eq honly hP⟩
    rw [Table.mem_keys_iff, Table.mem_keys_iff, hget]
  · rw [← Ledger.keys_only, ← Ledger.keys_only, honly]

/-! An option takes the place of a line that comes later, and the line is a repeat then.  The other lines
are as they are without options. -/

namespace Example

def pier : Program :=
  ⟨Table.ofEntries [
      ("Quay", ⟨"Quay", [], [.line "line:1", .option "line:2", .line "line:1"]⟩),
      ("Ship", ⟨"Ship", [], [.showOptions, .command "Hide NPC", .line "line:2", .line "line:3"]⟩)],
    Table.empty, Table.empty⟩

theorem captured_beside_plain_pier :
    ∃ plain captured, (pier.scan ⟨"story.json"⟩ ⟨"Fennel", false, .keepFirst⟩).outcome = .ok plain ∧
      (pier.scan ⟨"story.json"⟩ ⟨"Fennel", true, .keepFirst⟩).outcome = .ok captured ∧
      plain.speaker? "line:2" = some "" ∧ captured.speaker? "line:2" = some "Fennel" ∧
      .option "line:1" ∉ pier.instructions ∧
      captured.observations.get? "line:1" = plain.observations.get? "line:1" ∧
      captured.repeats = ["line:1", "line:2"] ∧ plain.repeats.count "line:1" = 1 := by
  obtain ⟨plain, captured, hplain, hcaptured, -, hother, -⟩ :=
    captured_beside_plain pier ⟨"story.json"⟩ "Fennel"
  have hline : .option "line:1" ∉ pier.instructions := by decide
  obtain ⟨-, hget, hcount⟩ := hother "line:1" hline
  have hrepeats : captured.repeats = ["line:1", "line:2"] := by
    rw [eq_addAll_of_scan hcaptured]
    decide +kernel
  refine ⟨plain, captured, hplain, hcaptured, ?_, ?_, hline, hget, hrepeats, ?_⟩
  · rw [eq_addAll_of_scan hplain]
    decide +kernel
  · rw [eq_addAll_of_scan hcaptured]
    decide +kernel
  · rw [← hcount, hrepeats]
    rfl

end Example

end Scan

end DialogueExport
