import DialogueExport.Proofs.LineTable.Failure
import DialogueExport.Proofs.Scan.Warnings

/-!
# What a table warns of

Behind the warnings of the scan come those about the string table.  Its entries are read in order, so the
entries without a line code that are selected are reported one by one (`warnings_merge`), up to the first
entry whose owner is not known.  Their number is reported only if there is no such entry, as the report of
a file comes after the whole string table (`warnings_build`).

Main statement: `warnings_of_ofProgram`.
-/

namespace DialogueExport

open Scan

namespace LineTable

variable {p : Program} {file : FilePath} {sel : Selection} {settings : ScanSettings} {ledger : Ledger}

/-! ## 1. Entries that are reported -/

/-- The entries that are reported: those without a line code that are selected and stand in front of the
first entry whose owner is not known. -/
def reported (p : Program) (sel : Selection) (entries : List (String × String)) :
    List (String × String) :=
  Untagged.select ((entries.takeWhile fun e => (p.owner? e.1).isSome).filter fun e =>
    sel.admitsOwner p e.1)

/-- The warnings about the string table. -/
def tableWarnings (p : Program) (file : FilePath) (sel : Selection) : List Event :=
  let found := reported p sel p.strings.entries
  found.map (fun e => .untagged file e.1 e.2) ++
    if p.firstUnowned? = none ∧ found ≠ [] then [.untaggedFile file found.length] else []

/-- An entry whose owner is not known hides all that comes behind it. -/
theorem reported_cons_of_none {e : String × String} (h : p.owner? e.1 = none)
    (entries : List (String × String)) : reported p sel (e :: entries) = [] := by
  simp [reported, h, Untagged.select]

theorem reported_cons_of_some {e : String × String} {n : Node} (h : p.owner? e.1 = some n)
    (entries : List (String × String)) :
    reported p sel (e :: entries) =
      (if sel.admitsOwner p e.1 = true ∧ KeyKind.of e.1 = .implicit then [e] else []) ++
        reported p sel entries := by
  have hsome : (p.owner? e.1).isSome = true := by
    rw [h]
    rfl
  unfold reported Untagged.select
  rw [List.takeWhile_cons, if_pos hsome, List.filter_cons]
  by_cases ha : sel.admitsOwner p e.1 = true
  · rw [if_pos ha, List.filter_cons]
    by_cases hi : KeyKind.of e.1 = .implicit
    · rw [if_pos (decide_eq_true hi), if_pos ⟨ha, hi⟩, List.singleton_append]
    · rw [if_neg (by simpa using hi), if_neg fun h => hi h.2, List.nil_append]
  · rw [if_neg ha, if_neg fun h => ha h.1, List.nil_append]

theorem reported_of_forall {entries : List (String × String)}
    (h : ∀ e ∈ entries, (p.owner? e.1).isSome) :
    reported p sel entries = Untagged.select (entries.filter fun e => sel.admitsOwner p e.1) := by
  rw [reported, List.takeWhile_eq_self_iff.mpr h]

theorem firstUnowned?_eq_none_iff :
    p.firstUnowned? = none ↔ ∀ e ∈ p.strings.entries, (p.owner? e.1).isSome := by
  simp only [Program.firstUnowned?, List.find?_eq_none, Option.isNone_iff_eq_none,
    Option.isSome_iff_ne_none]

/-! ## 2. Reading the string table -/

/-- An entry whose owner is known is reported if it is selected and has no line code. -/
theorem warnings_mergeEntry {e : String × String} {n : Node} (h : p.owner? e.1 = some n)
    (d : Draft) :
    (mergeEntry p file sel d e).warnings =
      if sel.admitsOwner p e.1 = true ∧ KeyKind.of e.1 = .implicit then [.untagged file e.1 e.2]
      else [] := by
  have hadmits : sel.admits p file e.1 = .ok (sel.admitsOwner p e.1) :=
    Selection.admits_eq_ok_iff.mpr ⟨by rw [h]; rfl, rfl⟩
  rw [mergeEntry, Logged.warnings_bind_of_ok hadmits]
  cases sel.admitsOwner p e.1 with
  | false => rfl
  | true =>
    rw [if_pos rfl, Logged.warnings_report_bind, Untagged.entryEvent]
    cases KeyKind.of e.1 <;> rfl

/-- Nothing is warned of when an owner is not known; that is a failure. -/
theorem mergeEntry_of_none {e : String × String} (h : p.owner? e.1 = none) (d : Draft) :
    (mergeEntry p file sel d e).warnings = [] ∧
      ∃ err, (mergeEntry p file sel d e).outcome = .error err := by
  obtain ⟨err, herr⟩ : ∃ err, sel.admits p file e.1 = .error err := by
    rw [exists_eq_error_iff]
    rintro ⟨b, hb⟩
    have hsome := (Selection.admits_eq_ok_iff.mp hb).1
    rw [h] at hsome
    cases hsome
  constructor
  · rw [mergeEntry, Logged.warnings_bind_of_error (e := err) herr]
    rfl
  · refine ⟨err, ?_⟩
    rw [mergeEntry, Logged.outcome_bind, Logged.outcome_ofExcept, herr]
    rfl

/-- Reading the string table warns of the entries that are reported, one by one. -/
theorem warnings_merge (entries : List (String × String)) (d : Draft) :
    (merge p file sel d entries).warnings =
      (reported p sel entries).map fun e => .untagged file e.1 e.2 := by
  induction entries generalizing d with
  | nil => rfl
  | cons e entries ih =>
    rw [merge, List.foldlM_cons]
    cases ho : p.owner? e.1 with
    | none =>
      obtain ⟨hnothing, err, herr⟩ := @mergeEntry_of_none p file sel e ho d
      rw [Logged.warnings_bind_of_error herr, hnothing, reported_cons_of_none ho, List.map_nil]
    | some n =>
      have hread : (mergeEntry p file sel d e).outcome = .ok (d.read p sel e) :=
        mergeEntry_eq_ok_iff.mpr ⟨by rw [ho]; rfl, rfl⟩
      have hrest : (entries.foldlM (mergeEntry p file sel) (d.read p sel e)).warnings =
          (reported p sel entries).map fun e => .untagged file e.1 e.2 := ih _
      rw [Logged.warnings_bind_of_ok hread, hrest, warnings_mergeEntry ho,
        reported_cons_of_some ho, List.map_append]
      congr 1
      split <;> rfl

/-! ## 3. The whole table -/

theorem filter_rowEvents (rows : List Row) :
    ((rows.map rowEvent).filter fun ev => ev.level = .warn) = [] := by
  rw [List.filter_eq_nil_iff]
  intro ev hev
  obtain ⟨r, -, rfl⟩ := List.mem_map.mp hev
  simp [rowEvent, Event.level]

theorem filter_fileEvents (entries : List (String × String)) :
    ((Untagged.fileEvents file entries).filter fun ev => ev.level = .warn) =
      if entries ≠ [] then [.untaggedFile file entries.length] else [] := by
  unfold Untagged.fileEvents
  cases entries <;> rfl

/-- Building a table warns of the string table, whatever was delivered. -/
theorem warnings_build : (build p file ledger sel).warnings = tableWarnings p file sel := by
  rw [build, tableWarnings]
  by_cases hall : ∀ e ∈ p.strings.entries, (p.owner? e.1).isSome
  · have hmerge : (merge p file sel ⟨seed p ledger sel, []⟩ p.strings.entries).outcome =
        .ok (draft p ledger sel) := merge_eq_ok_iff.mpr ⟨hall, rfl⟩
    have hselected : Untagged.select (draft p ledger sel).selected =
        reported p sel p.strings.entries := by
      rw [draft, selected_foldl_read, List.nil_append, reported_of_forall hall]
    have hnone := firstUnowned?_eq_none_iff.mpr hall
    rw [Logged.warnings_bind_of_ok hmerge, warnings_merge, Logged.warnings_report_bind,
      Logged.warnings_report_bind, filter_rowEvents, filter_fileEvents, hselected]
    simp only [hnone, true_and, List.nil_append, Logged.warnings_pure, List.append_nil]
  · obtain ⟨err, herr⟩ : ∃ err,
        (merge p file sel ⟨seed p ledger sel, []⟩ p.strings.entries).outcome = .error err := by
      rw [exists_eq_error_iff]
      rintro ⟨d, hd⟩
      exact hall (merge_eq_ok_iff.mp hd).1
    have hsome : p.firstUnowned? ≠ none := fun h => hall (firstUnowned?_eq_none_iff.mp h)
    rw [Logged.warnings_bind_of_error herr, warnings_merge]
    simp only [hsome, false_and, if_false, List.append_nil]

theorem warnings_ofProgram_eq (hk : settings.onRepeat = .keepFirst) :
    (ofProgram p file sel settings).warnings =
      (p.scan file settings).warnings ++ tableWarnings p file sel := by
  rw [ofProgram, Logged.warnings_bind_of_ok (outcome_scan_of_keepFirst hk),
    Logged.warnings_report_bind, warnings_build]
  rfl

/-- No warning about the string table is about a line that comes again. -/
theorem filter_isRepeat_tableWarnings :
    (tableWarnings p file sel).filter Event.isRepeat = [] := by
  rw [List.filter_eq_nil_iff]
  intro ev hev
  rcases List.mem_append.mp hev with hev | hev
  · obtain ⟨e, -, rfl⟩ := List.mem_map.mp hev
    exact Bool.false_ne_true
  · split at hev
    · obtain rfl := List.mem_singleton.mp hev
      exact Bool.false_ne_true
    · cases hev

/-- **Warnings match what happened.**  If repeats are allowed, these are the warnings of a file: position
by position those of the instructions, then those about the string table.  The table is made exactly if no
owner is missing; if one is, the warnings end in front of its entry.  The warnings about lines that come
again are the repeats of the scan, in order.  And wherever the scan stands, the lines that count as
delivered before are those it has observed, and its queue is the one whose options are shown next. -/
theorem warnings_of_ofProgram (p : Program) (file : FilePath) (sel : Selection)
    (settings : ScanSettings) (hk : settings.onRepeat = .keepFirst) :
    ((ofProgram p file sel settings).events.filter fun ev => ev.level = .warn) =
        (List.range p.instructions.length).flatMap (warningsAt p file settings p.instructions) ++
          tableWarnings p file sel ∧
      ((∃ t, (ofProgram p file sel settings).outcome = .ok t) ↔ p.firstUnowned? = none) ∧
      (∃ ledger, (p.scan file settings).outcome = .ok ledger ∧
        (ofProgram p file sel settings).events.filter Event.isRepeat =
          ledger.repeats.map (Event.repeated file)) ∧
      ∀ n, ∃ st, Reaches p file settings n st ∧
        (∀ code, code ∈ st.ledger.observations.keys ↔
          code ∈ emittedCodes settings (p.instructions.take n)) ∧
        st.scene.pending =
          if settings.captureOptions then queued (p.instructions.take n) else [] := by
  have hscan := @outcome_scan_of_keepFirst p file settings hk
  have hwarnings := @warnings_ofProgram_eq p file sel settings hk
  refine ⟨?_, ?_, ⟨_, hscan, ?_⟩, fun n => ?_⟩
  · rw [← warnings_scan hk]
    exact hwarnings
  · rw [exists_outcome_ofProgram_iff_of_keepFirst hk, firstUnowned?_eq_none_iff, Table.keys,
      List.forall_mem_map]
  · rw [Event.filter_isRepeat_eq, ← repeats_of_scan hscan, Event.filter_isRepeat_eq (p.scan _ _).events]
    change (ofProgram p file sel settings).warnings.filter Event.isRepeat = _
    rw [hwarnings, List.filter_append, filter_isRepeat_tableWarnings, List.append_nil]
    rfl
  · obtain ⟨st, hst⟩ := @exists_reaches p file settings hk n
    refine ⟨st, hst, fun code => ?_, ?_⟩
    · rw [hst.eq, Ledger.mem_keys_addAll, Scene.map_code_deliveries, List.map_take, p.map_snd_stream]
    · rw [hst.eq]
      exact Scene.pending_after _

/-! A line without a text comes twice, an option is queued twice and shown twice at once, and the node of
an entry is not there, so that neither the entry behind it nor the number is reported. -/

namespace Example

def lookout : Program :=
  ⟨Table.ofEntries [
      ("Quay", ⟨"Quay", [], [.line "line:1", .option "line:2", .option "line:2", .line "line:1"]⟩),
      ("Ship", ⟨"Ship", [], [.showOptions, .option "line:3"]⟩)],
    Table.ofEntries [("line:2", "Where?"), ("hail", "Who goes there?"), ("bell", "Fog!"),
      ("call", "Land ho!")],
    Table.ofEntries [("line:2", ⟨"Quay"⟩), ("hail", ⟨"Quay"⟩), ("bell", ⟨"Reef"⟩), ("call", ⟨"Quay"⟩)]⟩

/-- Options count as lines. -/
def capturing : ScanSettings := { captureOptions := true }

theorem warnings_of_ofProgram_lookout :
    capturing.onRepeat = .keepFirst ∧
      ((ofProgram lookout ⟨"story.json"⟩ Selection.all capturing).events.filter fun ev =>
          ev.level = .warn) =
        [.noText ⟨"story.json"⟩ "line:1", .noText ⟨"story.json"⟩ "line:1",
          .repeated ⟨"story.json"⟩ "line:1", .repeated ⟨"story.json"⟩ "line:2",
          .noText ⟨"story.json"⟩ "line:3", .untagged ⟨"story.json"⟩ "hail" "Who goes there?"] ∧
      (¬ ∃ t, (ofProgram lookout ⟨"story.json"⟩ Selection.all capturing).outcome = .ok t) ∧
      (ofProgram lookout ⟨"story.json"⟩ Selection.all capturing).events.filter Event.isRepeat =
        ["line:1", "line:2"].map (Event.repeated ⟨"story.json"⟩) := by
  obtain ⟨hwarnings, hmade, ⟨ledger, hscan, hrepeats⟩, -⟩ :=
    warnings_of_ofProgram lookout ⟨"story.json"⟩ Selection.all capturing rfl
  have hledger : ledger.repeats = ["line:1", "line:2"] := by
    rw [eq_addAll_of_scan hscan]
    decide +kernel
  refine ⟨rfl, hwarnings.trans (by decide +kernel), fun h => ?_, hledger ▸ hrepeats⟩
  exact absurd (hmade.mp h) (by decide +kernel)

end Example

end LineTable

end DialogueExport
