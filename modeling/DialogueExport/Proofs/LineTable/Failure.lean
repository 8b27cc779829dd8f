import DialogueExport.Proofs.LineTable.Rows
import DialogueExport.Proofs.Scan.Emitted
import Mathlib.Data.List.Nodup

/-!
# Why no table is made

`Refused` lists the ways in which a program gets no table, without a run and without a tag.  The scan
goes first: if repeats are not allowed, the first code that comes again is the failure, whatever else is
wrong (`outcome_scan_eq_error_iff`).  Then the string table is read, and the first entry whose owner is
not known is the failure (`outcome_merge_eq_error_iff`); an owner is asked for before the tag is, so the
tag has no say in this.  Nothing else fails (`outcome_ofProgram_eq_error_iff`), and no declaration counts
but those of lines in the string table (`ofProgram_congr`).

Main statement: `refusals_of_ofProgram`.
-/

namespace DialogueExport

open Scan

variable {p q : Program} {file : FilePath} {settings : ScanSettings} {sel : Selection}
  {e : ExportError}

/-! ## 1. Owners that are not known -/

namespace Program

/-- The first entry of the string table whose owner is not known. -/
def firstUnowned? (p : Program) : Option (String × String) :=
  p.strings.entries.find? fun e => (p.owner? e.1).isNone

theorem owner?_eq_none_iff {code : String} :
    p.owner? code = none ↔ p.lineInfo.get? code = none ∨
      ∃ info, p.lineInfo.get? code = some info ∧ p.nodes.get? info.node = none := by
  unfold owner?
  cases p.lineInfo.get? code with
  | none => simp
  | some info => simp

/-- Either the declaration is missing or the node that it names is. -/
theorem owner_eq_error_iff {code : String} :
    p.owner file code = .error e ↔
      p.lineInfo.get? code = none ∧ e = .noLineInfo file code (p.textOf code) ∨
      ∃ info, p.lineInfo.get? code = some info ∧ p.nodes.get? info.node = none ∧
        e = .noNode file code info.node := by
  unfold owner
  cases p.lineInfo.get? code with
  | none => simp [eq_comm]
  | some info =>
    dsimp only
    cases h : p.nodes.get? info.node with
    | none => simp [h, eq_comm]
    | some n => simp [h]

/-- An owner that is known is no failure. -/
theorem owner_ne_error {code : String} {n : Node} (h : p.owner? code = some n) :
    p.owner file code ≠ .error e := by
  rw [owner_eq_ok_iff.mpr h]
  exact fun h => by cases h

theorem textOf_of_firstUnowned? {code text : String} (h : p.firstUnowned? = some (code, text)) :
    p.textOf code = text := by
  have hm : (code, text) ∈ p.strings.entries := List.mem_of_find?_eq_some h
  rw [textOf, Table.getD, Table.mem_entries_iff.mp hm, Option.getD_some]

end Program

/-! ## 2. Reading the string table -/

namespace LineTable

theorem outcome_mergeEntry_eq_error_iff {d : Draft} {x : String × String} :
    (mergeEntry p file sel d x).outcome = .error e ↔ p.owner file x.1 = .error e := by
  rw [mergeEntry, Logged.outcome_bind, bind_eq_error, Logged.outcome_ofExcept, Selection.admits]
  cases p.owner file x.1 with
  | error e' => simp [Except.map]
  | ok n =>
    -- Once the owner is known, both ways to go on come to a draft.
    refine ⟨?_, fun h => by cases h⟩
    rintro (h | ⟨b, -, h⟩)
    · cases h
    · cases b <;> cases h

/-- Reading ends at the first entry whose owner is not known. -/
theorem outcome_merge_eq_error_iff {d : Draft} {entries : List (String × String)} :
    (merge p file sel d entries).outcome = .error e ↔
      ∃ x, entries.find? (fun x => (p.owner? x.1).isNone) = some x ∧
        p.owner file x.1 = .error e := by
  induction entries generalizing d with
  | nil => simp [merge]
  | cons x entries ih =>
    rw [merge, List.foldlM_cons, Logged.outcome_bind, bind_eq_error, outcome_mergeEntry_eq_error_iff,
      List.find?_cons]
    simp only [mergeEntry_eq_ok_iff]
    cases ho : p.owner? x.1 with
    | none => simp
    | some n =>
      have hne : p.owner file x.1 ≠ .error e := Program.owner_ne_error ho
      have hrest : (∃ d', d' = d.read p sel x ∧
          (entries.foldlM (mergeEntry p file sel) d').outcome = .error e) ↔
          (merge p file sel (d.read p sel x) entries).outcome = .error e := by
        simp [merge]
      simpa [hne] using hrest.trans ih

theorem outcome_build_eq_error_iff {ledger : Ledger} :
    (build p file ledger sel).outcome = .error e ↔
      ∃ x, p.firstUnowned? = some x ∧ p.owner file x.1 = .error e := by
  rw [build, Logged.outcome_bind, bind_eq_error, outcome_merge_eq_error_iff]
  refine ⟨?_, Or.inl⟩
  rintro (h | ⟨d, -, h⟩)
  · exact h
  · cases h

/-- Only the owners of entries count. -/
theorem merge_congr {d : Draft} {entries : List (String × String)}
    (h : ∀ x ∈ entries, q.owner file x.1 = p.owner file x.1) :
    merge q file sel d entries = merge p file sel d entries := by
  induction entries generalizing d with
  | nil => rfl
  | cons x entries ih =>
    have hx : mergeEntry q file sel d x = mergeEntry p file sel d x := by
      rw [mergeEntry, mergeEntry, Selection.admits, Selection.admits, h x (by simp)]
    rw [merge, merge, List.foldlM_cons, List.foldlM_cons, hx]
    congr 1
    funext d'
    exact ih fun y hy => h y (by simp [hy])

/-- Declarations of lines that the string table does not know change nothing, not even what is
reported. -/
theorem ofProgram_congr (hn : q.nodes = p.nodes) (hs : q.strings = p.strings)
    (hi : ∀ code ∈ p.strings.keys, q.lineInfo.get? code = p.lineInfo.get? code) :
    ofProgram q file sel settings = ofProgram p file sel settings := by
  obtain ⟨nodes, strings, lineInfo⟩ := q
  obtain rfl : nodes = p.nodes := hn
  obtain rfl : strings = p.strings := hs
  have howner : ∀ x ∈ p.strings.entries,
      (⟨p.nodes, p.strings, lineInfo⟩ : Program).owner file x.1 = p.owner file x.1 := by
    intro x hx
    have hx' := hi x.1 (List.mem_map.mpr ⟨x, hx, rfl⟩)
    simp only at hx'
    simp [Program.owner, hx', Program.textOf]
  have hbuild : ∀ ledger, build ⟨p.nodes, p.strings, lineInfo⟩ file ledger sel =
      build p file ledger sel := by
    intro ledger
    rw [build, build, merge_congr howner]
    rfl
  rw [ofProgram, ofProgram]
  simp only [hbuild]
  rfl

/-! ## 3. Every way to fail -/

/-- Why a program gets no table. -/
inductive Refused (p : Program) (file : FilePath) (settings : ScanSettings) : ExportError → Prop
  /-- Repeats are not allowed, and this is the first code that is delivered again. -/
  | repeatedCode {code : String} (ha : settings.onRepeat = .abort)
      (hc : IsFirstRepeat (emittedCodes settings p.instructions) code) :
      Refused p file settings (.repeatedCode file code)
  /-- The first entry of the string table without an owner has no declaration. -/
  | noLineInfo {code text : String}
      (hs : settings.onRepeat = .abort → (emittedCodes settings p.instructions).Nodup)
      (hf : p.firstUnowned? = some (code, text)) (hi : p.lineInfo.get? code = none) :
      Refused p file settings (.noLineInfo file code text)
  /-- The first entry of the string table without an owner names a node that is not there. -/
  | noNode {code text : String} {info : LineInfo}
      (hs : settings.onRepeat = .abort → (emittedCodes settings p.instructions).Nodup)
      (hf : p.firstUnowned? = some (code, text)) (hi : p.lineInfo.get? code = some info)
      (hn : p.nodes.get? info.node = none) :
      Refused p file settings (.noNode file code info.node)

/-- The scan goes first. -/
theorem ofProgram_eq_error_iff :
    (ofProgram p file sel settings).outcome = .error e ↔
      (p.scan file settings).outcome = .error e ∨
        (settings.onRepeat = .abort → (emittedCodes settings p.instructions).Nodup) ∧
          ∃ x, p.firstUnowned? = some x ∧ p.owner file x.1 = .error e := by
  rw [ofProgram, Logged.outcome_bind, bind_eq_error, ← @exists_outcome_scan_iff p file settings]
  simp only [Logged.outcome_bind, Logged.outcome_report, bind_eq_error, reduceCtorEq, false_or,
    outcome_build_eq_error_iff, true_and, exists_const, exists_and_right]

/-- A table fails to be made in exactly these ways. -/
theorem outcome_ofProgram_eq_error_iff :
    (ofProgram p file sel settings).outcome = .error e ↔ Refused p file settings e := by
  rw [ofProgram_eq_error_iff, outcome_scan_eq_error_iff]
  constructor
  · rintro (⟨ha, code, hc, rfl⟩ | ⟨hs, ⟨code, text⟩, hf, ho⟩)
    · exact .repeatedCode ha hc
    · rcases Program.owner_eq_error_iff.mp ho with ⟨hi, rfl⟩ | ⟨info, hi, hn, rfl⟩
      · rw [Program.textOf_of_firstUnowned? hf]
        exact .noLineInfo hs hf hi
      · exact .noNode hs hf hi hn
  · intro h
    cases h with
    | repeatedCode ha hc => exact Or.inl ⟨ha, _, hc, rfl⟩
    | noLineInfo hs hf hi =>
      refine Or.inr ⟨hs, _, hf, Program.owner_eq_error_iff.mpr (Or.inl ⟨hi, ?_⟩)⟩
      rw [Program.textOf_of_firstUnowned? hf]
    | noNode hs hf hi hn =>
      exact Or.inr ⟨hs, _, hf, Program.owner_eq_error_iff.mpr (Or.inr ⟨_, hi, hn, rfl⟩)⟩

/-- A table is made exactly if the scan comes to its end and all owners are known. -/
theorem exists_outcome_ofProgram_iff :
    (∃ t, (ofProgram p file sel settings).outcome = .ok t) ↔
      (settings.onRepeat = .abort → (emittedCodes settings p.instructions).Nodup) ∧
        ∀ code ∈ p.strings.keys, (p.owner? code).isSome := by
  simp only [ofProgram_eq_ok_iff, build_eq_ok_iff, ← @exists_outcome_scan_iff p file settings]
  constructor
  · rintro ⟨t, ledger, hs, ho, -⟩
    exact ⟨⟨ledger, hs⟩, ho⟩
  · rintro ⟨⟨ledger, hs⟩, ho⟩
    exact ⟨_, ledger, hs, ho, rfl⟩

/-- If repeats are allowed, only an owner can be missing. -/
theorem exists_outcome_ofProgram_iff_of_keepFirst (hk : settings.onRepeat = .keepFirst) :
    (∃ t, (ofProgram p file sel settings).outcome = .ok t) ↔
      ∀ code ∈ p.strings.keys, (p.owner? code).isSome := by
  rw [exists_outcome_ofProgram_iff]
  refine and_iff_right fun ha => ?_
  rw [hk] at ha
  cases ha

/-- **Why no table is made.**  A program gets no table exactly in the ways of `Refused`: repeats are
not allowed and a line is delivered twice, or else the owner of some entry of the string table is not
known.  The tag has no say in it, and neither have declarations of lines that the string table does not
know. -/
theorem refusals_of_ofProgram (p : Program) (file : FilePath) (sel : Selection)
    (settings : ScanSettings) :
    (∀ e, (ofProgram p file sel settings).outcome = .error e ↔ Refused p file settings e) ∧
      ((∃ e, (ofProgram p file sel settings).outcome = .error e) ↔
        (settings.onRepeat = .abort ∧
          ∃ code, 2 ≤ (emittedCodes settings p.instructions).count code) ∨
        ∃ code ∈ p.strings.keys, p.lineInfo.get? code = none ∨
          ∃ info, p.lineInfo.get? code = some info ∧ p.nodes.get? info.node = none) ∧
      (∀ (other : Selection) (e : ExportError), (ofProgram p file sel settings).outcome = .error e ↔
        (ofProgram p file other settings).outcome = .error e) ∧
      ∀ q : Program, q.nodes = p.nodes → q.strings = p.strings →
        (∀ code ∈ p.strings.keys, q.lineInfo.get? code = p.lineInfo.get? code) →
        ofProgram q file sel settings = ofProgram p file sel settings := by
  refine ⟨fun e => outcome_ofProgram_eq_error_iff, ?_, fun other e => ?_,
    fun q hn hs hi => ofProgram_congr hn hs hi⟩
  · rw [exists_eq_error_iff, exists_outcome_ofProgram_iff, List.nodup_iff_count_le_one]
    simp only [not_and_or, Classical.not_imp, not_forall, Nat.not_le, Option.not_isSome_iff_eq_none,
      Program.owner?_eq_none_iff]
    rfl
  · rw [outcome_ofProgram_eq_error_iff, outcome_ofProgram_eq_error_iff]

/-! A line that comes again is the failure although an owner is missing, too. -/

namespace Example

/-- One line comes twice, and the string table knows a line that was never declared. -/
def echo : Program :=
  ⟨Table.ofEntries [("Quay", ⟨"Quay", [], [.option "line:1", .showOptions, .line "line:1"]⟩)],
    Table.ofEntries [("line:1", "Ahoy!"), ("line:2", "Set sail!")], Table.ofEntries [("line:1", ⟨"Quay"⟩)]⟩

/-- Repeats are not allowed, and options count as lines. -/
def strict : ScanSettings := { captureOptions := true, onRepeat := .abort }

theorem refusals_of_ofProgram_echo :
    IsFirstRepeat (emittedCodes strict echo.instructions) "line:1" ∧
      echo.firstUnowned? = some ("line:2", "Set sail!") ∧
      (∀ sel, (ofProgram echo ⟨"story.json"⟩ sel strict).outcome =
        .error (.repeatedCode ⟨"story.json"⟩ "line:1")) ∧
      ofProgram { echo with lineInfo := echo.lineInfo.insert "line:3" ⟨"Reef"⟩ } ⟨"story.json"⟩
        Selection.all strict = ofProgram echo ⟨"story.json"⟩ Selection.all strict := by
  have hc : IsFirstRepeat (emittedCodes strict echo.instructions) "line:1" := by decide
  have hi : ∀ code ∈ echo.strings.keys,
      (echo.lineInfo.insert "line:3" ⟨"Reef"⟩).get? code = echo.lineInfo.get? code := by decide
  refine ⟨hc, rfl, fun sel => ?_, ?_⟩
  · exact ((refusals_of_ofProgram echo ⟨"story.json"⟩ sel strict).1 _).mpr (.repeatedCode rfl hc)
  · exact (refusals_of_ofProgram echo ⟨"story.json"⟩ Selection.all strict).2.2.2 _ rfl rfl hi

end Example

end LineTable

end DialogueExport
