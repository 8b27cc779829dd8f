import DialogueExport.Inspection
import DialogueExport.Proofs.LineTable.ByTag
import DialogueExport.Proofs.LineTable.Completeness
import DialogueExport.Proofs.Program.RoundTrip
import Mathlib.Algebra.BigOperators.Group.List.Lemmas
import Mathlib.Algebra.GroupWithZero.Nat

/-!
# Inspecting and exporting agree

The numbers of a program and its table without a tag come from the same ledger by two routes.  The
numbers count the observations by speaker.  The table merges the observations with the string table,
asks for the owner of each entry and is sorted, and the speakers are one of its columns.

Both count the same.  A tally counts every occurrence of a name once (`getD_tally`,
`sum_values_tally`).  The lines of the table are those that were delivered and those of the string
table that never were (`codes_perm`), so its speakers are those of the observations, and nobody for
each of the others (`characters_perm`).  And as every delivery is an observation or a repeat, the
numbers account for all of them (`sum_lines_add_repeats`).

Main statement: `agrees_of_load`.
-/

namespace DialogueExport

/-! ## 1. Counting names -/

/-- Looking up a key does not depend on the order of the entries. -/
theorem lookup_sortByKey {α : Type} {l : List (String × α)} (h : (l.map Prod.fst).Nodup)
    (k : String) : (sortByKey l).lookup k = l.lookup k := by
  have hs : ((sortByKey l).map Prod.fst).Nodup := ((sortByKey_perm l).map Prod.fst).nodup_iff.mpr h
  refine Option.ext fun a => ?_
  rw [Table.lookup_eq_some_iff_mem hs, Table.lookup_eq_some_iff_mem h, (sortByKey_perm l).mem_iff]

namespace Inspection

theorem getD_tick (t : Table String Nat) (head name : String) :
    (tick t head).getD name 0 = t.getD name 0 + if head = name then 1 else 0 := by
  rw [Table.getD, tick, Table.get?_insert]
  by_cases h : head = name
  · subst h
    simp
  · simp [Table.getD, h, Ne.symm h]

theorem getD_foldl_tick (names : List String) (t : Table String Nat) (name : String) :
    (names.foldl tick t).getD name 0 = t.getD name 0 + names.count name := by
  induction names generalizing t with
  | nil => simp
  | cons head names ih =>
    rw [List.foldl_cons, ih, getD_tick, List.count_cons]
    simp only [beq_iff_eq]
    omega

theorem mem_keys_foldl_tick {names : List String} {t : Table String Nat} {name : String} :
    name ∈ (names.foldl tick t).keys ↔ name ∈ t.keys ∨ name ∈ names := by
  induction names generalizing t with
  | nil => simp
  | cons head names ih =>
    rw [List.foldl_cons, ih, tick, Table.mem_keys_insert, List.mem_cons]
    tauto

/-- A name is counted as often as it occurs. -/
theorem getD_tally (names : List String) (name : String) :
    (tally names).getD name 0 = names.count name := by
  rw [tally, getD_foldl_tick]
  exact Nat.zero_add _

theorem mem_keys_tally {names : List String} {name : String} :
    name ∈ (tally names).keys ↔ name ∈ names := by
  rw [tally, mem_keys_foldl_tick, Table.keys_empty]
  simp

theorem snd_of_mem_entries_tally {names : List String} {e : String × Nat}
    (he : e ∈ (tally names).entries) : e.2 = names.count e.1 := by
  rw [← getD_tally, Table.getD, Table.mem_entries_iff.mp he, Option.getD_some]

/-- Every occurrence is counted once. -/
theorem sum_values_tally (names : List String) : (tally names).values.sum = names.length := by
  have hkeys : (tally names).keys.Perm names.dedup := by
    refine (List.perm_ext_iff_of_nodup (tally names).nodup_keys
      (List.nodup_dedup _)).mpr fun name => ?_
    rw [mem_keys_tally, List.mem_dedup]
  have hvalues : (tally names).values = (tally names).keys.map names.count := by
    rw [Table.values, Table.keys, List.map_map]
    exact List.map_congr_left fun e he => snd_of_mem_entries_tally he
  rw [hvalues, (hkeys.map _).sum_eq, List.sum_map_count_dedup_eq_length]

/-! ## 2. The numbers of a program -/

/-- How many lines a speaker has. -/
def countOf (n : Inspection) (name : String) : Nat := (n.lines.lookup name).getD 0

variable {p : Program} {file : FilePath} {settings : ScanSettings} {ledger : Ledger}

theorem outcome_ofProgram (h : (p.scan file settings).outcome = .ok ledger) :
    (ofProgram p file settings).outcome = .ok (ofLedger p ledger) := by
  rw [ofProgram, Logged.outcome_bind, h]
  rfl

theorem countOf_ofLedger (name : String) :
    (ofLedger p ledger).countOf name =
      (ledger.observations.values.map Observation.speaker).count name := by
  rw [countOf, ofLedger, lookup_sortByKey (tally _).keys_nodup, ← getD_tally]
  rfl

theorem nodup_names : ((ofLedger p ledger).lines.map Prod.fst).Nodup :=
  ((sortByKey_perm _).map Prod.fst).nodup_iff.mpr (tally _).keys_nodup

theorem pos_of_mem_lines {e : String × Nat} (he : e ∈ (ofLedger p ledger).lines) : 0 < e.2 := by
  have hm : e ∈ (tally (ledger.observations.values.map Observation.speaker)).entries :=
    (sortByKey_perm _).mem_iff.mp he
  rw [snd_of_mem_entries_tally hm, List.count_pos_iff, ← mem_keys_tally]
  exact List.mem_map_of_mem hm

theorem sum_lines : ((ofLedger p ledger).lines.map Prod.snd).sum = ledger.observations.size := by
  have hsize : (ledger.observations.values.map Observation.speaker).length =
      ledger.observations.size := by
    simp [Table.values, Table.size]
  rw [ofLedger, ((sortByKey_perm _).map Prod.snd).sum_eq, ← hsize]
  exact sum_values_tally _

/-- The numbers account for every delivery. -/
theorem sum_lines_add_repeats (h : (p.scan file settings).outcome = .ok ledger) :
    ((ofLedger p ledger).lines.map Prod.snd).sum + (ofLedger p ledger).repeats.length =
      (p.deliveries settings).length := by
  rw [sum_lines, ofLedger, Scan.eq_addAll_of_scan h, Ledger.size_addAll]
  exact Nat.zero_add _

/-- Every entry of the string table has a line code or has none. -/
theorem canonical_add_untagged :
    (ofLedger p ledger).canonical + (Untagged.select p.strings.entries).length =
      p.strings.size := by
  simp only [ofLedger, Untagged.select, Table.keys, Table.size, List.filter_map, List.length_map]
  rw [← List.countP_eq_length_filter, ← List.countP_eq_length_filter,
    List.length_eq_countP_add_countP (fun e => decide (KeyKind.of e.1 = .canonical))]
  congr 1
  refine List.countP_congr fun e _ => ?_
  cases KeyKind.of e.1 <;> simp

end Inspection

/-! ## 3. The speakers of a table -/

namespace LineTable

variable {p : Program} {file : FilePath} {settings : ScanSettings} {ledger : Ledger}

/-- The lines of the string table that are never delivered. -/
def unheard (p : Program) (ledger : Ledger) : List String :=
  p.strings.keys.filter fun code => !ledger.has code

theorem mem_unheard_iff {code : String} :
    code ∈ unheard p ledger ↔ code ∈ p.strings.keys ∧ code ∉ ledger.observations.keys := by
  rw [unheard, List.mem_filter, Ledger.has, Bool.not_eq_true', ← Bool.not_eq_true,
    Table.contains_iff]

theorem map_character_rows (sel : Selection) :
    (table p ledger sel).rows.map Row.character =
      ((table p ledger sel).rows.map Row.code).map fun code => (ledger.speaker? code).getD "" := by
  rw [List.map_map]
  refine List.map_congr_left fun r hr => ?_
  obtain ⟨text, -, hrow⟩ := mem_rows_table_iff.mp hr
  exact congrArg Row.character hrow

/-- Without a tag, the lines of a table are those that were delivered and those that never were. -/
theorem codes_perm (hp : p.Named) (hs : (p.scan file settings).outcome = .ok ledger)
    (ho : ∀ code ∈ p.strings.keys, (p.owner? code).isSome) :
    ((table p ledger Selection.all).rows.map Row.code).Perm
      (ledger.observations.keys ++ unheard p ledger) := by
  have hdisjoint : ∀ code ∈ ledger.observations.keys, ∀ other ∈ unheard p ledger, code ≠ other := by
    rintro code hc _ hu rfl
    exact (mem_unheard_iff.mp hu).2 hc
  have hnodup : (ledger.observations.keys ++ unheard p ledger).Nodup :=
    List.nodup_append.mpr
      ⟨ledger.observations.nodup_keys, p.strings.nodup_keys.filter _, hdisjoint⟩
  refine (List.perm_ext_iff_of_nodup nodup_codes_table hnodup).mpr fun code => ?_
  rw [mem_codes_table_iff hp hs ho, ← Scan.mem_keys_iff_emits hs, List.mem_append, mem_unheard_iff]
  tauto

/-- The speakers of the rows are those of the observations, and nobody for each line that is never
delivered. -/
theorem characters_perm (hp : p.Named) (hs : (p.scan file settings).outcome = .ok ledger)
    (ho : ∀ code ∈ p.strings.keys, (p.owner? code).isSome) :
    ((table p ledger Selection.all).rows.map Row.character).Perm
      (ledger.observations.values.map Observation.speaker ++
        List.replicate (unheard p ledger).length "") := by
  have hheard : ledger.observations.keys.map (fun code => (ledger.speaker? code).getD "") =
      ledger.observations.values.map Observation.speaker := by
    have := congrArg (List.map fun o => (o.map Observation.speaker).getD "")
      ledger.observations.map_get?_keys
    simpa [Ledger.speaker?, Function.comp_def] using this
  have hunheard : (unheard p ledger).map (fun code => (ledger.speaker? code).getD "") =
      List.replicate (unheard p ledger).length "" := by
    refine List.eq_replicate_iff.mpr ⟨List.length_map _, fun name hname => ?_⟩
    obtain ⟨code, hcode, rfl⟩ := List.mem_map.mp hname
    rw [Ledger.speaker?, Table.get?_eq_none_iff.mpr (mem_unheard_iff.mp hcode).2]
    rfl
  rw [map_character_rows, ← hheard, ← hunheard, ← List.map_append]
  exact (codes_perm hp hs ho).map _

theorem untagged_table_all (ho : ∀ code ∈ p.strings.keys, (p.owner? code).isSome) :
    (table p ledger Selection.all).untagged = Untagged.select p.strings.entries := by
  have hall : ∀ e ∈ p.strings.entries, Selection.all.admitsOwner p e.1 = true := by
    intro e he
    rw [Selection.admitsOwner_all]
    exact ho e.1 (List.mem_map_of_mem he)
  rw [untagged_table, List.filter_eq_self.mpr hall]

end LineTable

/-! ## 4. The two agree -/

namespace Inspection

/-- The numbers of a program agree with its table without a tag and with its deliveries. -/
structure Agrees (p : Program) (settings : ScanSettings) (ledger : Ledger) (t : LineTable)
    (n : Inspection) : Prop where
  /-- A speaker has as many lines as rows. -/
  spoken : ∀ name, name ≠ "" → n.countOf name = (t.rows.map Row.character).count name
  /-- The rows without a speaker are the lines that nobody speaks and those that are never
  delivered. -/
  unspoken : (t.rows.map Row.character).count "" =
    n.countOf "" + (LineTable.unheard p ledger).length
  names : (n.lines.map Prod.fst).Nodup
  positive : ∀ e ∈ n.lines, 0 < e.2
  untagged : n.implicit = t.untagged.length
  strings : n.canonical + n.implicit = n.strings
  /-- Every delivery is a line of somebody or a repeat. -/
  deliveries : (n.lines.map Prod.snd).sum + n.repeats.length = (p.deliveries settings).length
  /-- What is delivered can be counted in the program. -/
  delivered : (p.deliveries settings).length = Scan.deliveryCount settings p.instructions

variable {p : Program} {file : FilePath} {settings : ScanSettings} {ledger : Ledger}

theorem agrees_of_scan (hp : p.Named) (hs : (p.scan file settings).outcome = .ok ledger)
    (ho : ∀ code ∈ p.strings.keys, (p.owner? code).isSome) :
    Agrees p settings ledger (LineTable.table p ledger Selection.all) (ofLedger p ledger) := by
  have hcount : ∀ name,
      ((LineTable.table p ledger Selection.all).rows.map Row.character).count name =
        (ofLedger p ledger).countOf name +
          (List.replicate (LineTable.unheard p ledger).length "").count name := by
    intro name
    rw [(LineTable.characters_perm hp hs ho).count_eq, List.count_append, countOf_ofLedger]
  have hsum : (ofLedger p ledger).canonical + (Untagged.select p.strings.entries).length =
      p.strings.size := canonical_add_untagged
  have himplicit : (ofLedger p ledger).implicit =
      p.strings.size - (ofLedger p ledger).canonical := rfl
  have hstrings : (ofLedger p ledger).strings = p.strings.size := rfl
  refine ⟨fun name hname => ?_, ?_, nodup_names, fun e he => pos_of_mem_lines he, ?_, ?_,
    sum_lines_add_repeats hs, p.length_deliveries settings⟩
  · rw [hcount, List.count_replicate, if_neg (by simpa using Ne.symm hname), Nat.add_zero]
  · rw [hcount, List.count_replicate_self]
  · rw [LineTable.untagged_table_all ho, himplicit]
    omega
  · omega

/-- **Inspecting and exporting agree.**  If a table is made of a loaded program without a tag, then
the program can be inspected, whichever file it is said to be from, and its numbers agree with the
table. -/
theorem agrees_of_load {text : String} {t : LineTable} (file' : FilePath)
    (hp : Program.load text = .ok p)
    (ht : (LineTable.ofProgram p file Selection.all settings).outcome = .ok t) :
    ∃ ledger n, (p.scan file settings).outcome = .ok ledger ∧
      (ofProgram p file' settings).outcome = .ok n ∧ Agrees p settings ledger t n := by
  obtain ⟨ledger, hs, hb⟩ := LineTable.ofProgram_eq_ok_iff.mp ht
  obtain ⟨ho, rfl⟩ := LineTable.build_eq_ok_iff.mp hb
  exact ⟨ledger, ofLedger p ledger, hs, outcome_ofProgram (Scan.outcome_scan_of_ok hs file'),
    agrees_of_scan (Program.named_of_load hp) hs ho⟩

/-! A line comes twice, an option is shown in another node than the one that holds it, and two lines
of the string table are never delivered, one of them without a line code. -/

namespace Example

def landingDocument : Document where
  nodes := [⟨"Quay", [], [.command "Show NPC Port/Aria", .line "line:1", .option "line:2"]⟩,
    ⟨"Ship", [], [.showOptions, .line "line:1"]⟩]
  strings := [("line:1", "Land ho!"), ("line:2", "Where?"), ("line:3", "Fog."),
    ("Ship-4", "Bells.")]
  lineInfo := [("line:1", ⟨"Quay"⟩), ("line:2", ⟨"Quay"⟩), ("line:3", ⟨"Ship"⟩),
    ("Ship-4", ⟨"Ship"⟩)]

def landing : Program :=
  ⟨Table.ofEntries (landingDocument.nodes.map fun n => (n.name, n)),
    Table.ofEntries landingDocument.strings, Table.ofEntries landingDocument.lineInfo⟩

def landingTable : LineTable :=
  ⟨[⟨"Ship-4", "Bells.", "", ""⟩, ⟨"line:1", "Land ho!", "Aria", ""⟩,
    ⟨"line:2", "Where?", "Fennel", ""⟩, ⟨"line:3", "Fog.", "", ""⟩], [("Ship-4", "Bells.")]⟩

theorem load_landing : Program.load (String.ofList landingDocument.print) = .ok landing := by
  have hproper : ∀ n ∈ landingDocument.nodes, ∀ i ∈ n.instructions, i.Proper := by
    simp [landingDocument, Instruction.Proper]
  exact Program.load_eq_ok_iff.mpr
    ⟨landingDocument, (Document.takes_document hproper).decode, rfl⟩

theorem agrees_of_load_landing :
    Program.load (String.ofList landingDocument.print) = .ok landing ∧
      (LineTable.ofProgram landing ⟨"story.json"⟩ Selection.all { captureOptions := true }).outcome =
        .ok landingTable ∧
      ∃ ledger n,
        (landing.scan ⟨"story.json"⟩ { captureOptions := true }).outcome = .ok ledger ∧
        (ofProgram landing ⟨"story.json"⟩ { captureOptions := true }).outcome = .ok n ∧
        Agrees landing { captureOptions := true } ledger landingTable n := by
  have ht : (LineTable.ofProgram landing ⟨"story.json"⟩ Selection.all
      { captureOptions := true }).outcome = .ok landingTable :=
    toOption_eq_some_iff.mp (by decide +kernel)
  exact ⟨load_landing, ht, agrees_of_load ⟨"story.json"⟩ load_landing ht⟩

end Example

end Inspection

end DialogueExport
