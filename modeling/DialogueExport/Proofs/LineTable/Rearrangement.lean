import DialogueExport.Proofs.LineTable.ByTag
import DialogueExport.Proofs.LineTable.Completeness
import DialogueExport.Proofs.LineTable.Failure
import DialogueExport.Proofs.Program.RoundTrip
import Mathlib.Data.List.Sort

/-!
# Tables of rearranged programs

A program may be rearranged: its nodes and the entries of its tables are put into another order
(`Program.Rearranged`).  The scan goes through the nodes in their order, so it may hear a line from
somebody else first, in another node, and with other repeats.  None of this reaches the table but the
speaker.  Without a tag and without options the lines of a table are those of the string table and
those of the program's own instructions (`mem_codes_table_iff`), both as sets, and the rows stand in
the order of their codes.  So the codes do not change (`map_code_rows_of_rearranged`), and a row is made of
its code, the string table and the first delivery (`rows_table_eq_map_code`), where only the last knows of
an order.

If the nodes stay as they are, the first deliveries do too (`Rearranged.deliveries_eq`), and with them the
speakers.

Main statement: `tables_of_rearranged`.
-/

namespace DialogueExport

open Scan

/-- In which order the entries of a table stand makes no difference to looking up. -/
theorem Table.get?_eq_of_perm {κ α : Type} [DecidableEq κ] {s t : Table κ α}
    (h : s.entries.Perm t.entries) (k : κ) : s.get? k = t.get? k := by
  refine Option.ext fun a => ?_
  rw [← mem_entries_iff, ← mem_entries_iff]
  exact h.mem_iff

namespace Program

/-! ## 1. Programs in another order -/

/-- The one program has the nodes, texts and declarations of the other, in any order. -/
structure Rearranged (p q : Program) : Prop where
  nodes : p.nodes.entries.Perm q.nodes.entries
  strings : p.strings.entries.Perm q.strings.entries
  lineInfo : p.lineInfo.entries.Perm q.lineInfo.entries

namespace Rearranged

variable {p q : Program} {settings : ScanSettings} {code : String}

theorem named (h : p.Rearranged q) (hp : p.Named) : q.Named := by
  intro e he
  exact hp e (h.nodes.mem_iff.mpr he)

theorem owner?_eq (h : p.Rearranged q) (code : String) : p.owner? code = q.owner? code := by
  unfold owner?
  rw [Table.get?_eq_of_perm h.lineInfo]
  congr 1
  funext info
  exact Table.get?_eq_of_perm h.nodes info.node

theorem textOf_eq (h : p.Rearranged q) : p.textOf = q.textOf := by
  funext code
  rw [textOf, textOf, Table.getD, Table.getD, Table.get?_eq_of_perm h.strings]

theorem mem_keys_strings_iff (h : p.Rearranged q) :
    code ∈ p.strings.keys ↔ code ∈ q.strings.keys :=
  (h.strings.map Prod.fst).mem_iff

/-- All instructions are still there. -/
theorem instructions_perm (h : p.Rearranged q) : p.instructions.Perm q.instructions :=
  (h.nodes.map Prod.snd).flatMap_right Node.instructions

/-- Without options the order of the nodes does not decide whether a line is delivered. -/
theorem emits_iff (h : p.Rearranged q) (hc : settings.captureOptions = false) :
    Emits settings p.instructions code ↔ Emits settings q.instructions code := by
  simp only [Emits, hc, Bool.false_eq_true, false_and, or_false]
  exact h.instructions_perm.mem_iff

/-- Nodes that stay as they are deliver what they delivered. -/
theorem deliveries_eq (h : p.Rearranged q) (hn : p.nodes = q.nodes) (settings : ScanSettings) :
    p.deliveries settings = q.deliveries settings := by
  rw [deliveries, deliveries, stream, stream, h.textOf_eq, hn]

end Rearranged

end Program

namespace LineTable

variable {p q : Program} {file file' : FilePath} {ledger ledger' : Ledger} {sel : Selection}
  {settings : ScanSettings}

/-! ## 2. Rows from their codes -/

/-- A row but for its speaker. -/
def rowWithoutCharacter (r : Row) : String × String × String := (r.code, r.text, r.comment)

/-- After a scan a row is made of its code. -/
theorem rows_table_eq_map_code (hs : (p.scan file settings).outcome = .ok ledger) :
    (table p ledger sel).rows =
      ((table p ledger sel).rows.map Row.code).map fun code => rowOf ledger code (p.textOf code) := by
  rw [List.map_map]
  refine (List.map_id _).symm.trans (List.map_congr_left fun r hr => ?_)
  obtain ⟨text, -, hrow⟩ := mem_rows_table_iff.mp hr
  have htext : r.text = text := congrArg Row.text hrow
  rw [Function.comp_apply, ← text_eq_textOf hs hr, htext]
  exact hrow

theorem map_withoutCharacter_rows (hs : (p.scan file settings).outcome = .ok ledger) :
    (table p ledger sel).rows.map rowWithoutCharacter =
      ((table p ledger sel).rows.map Row.code).map fun code => (code, p.textOf code, "") := by
  conv_lhs => rw [rows_table_eq_map_code hs]
  rw [List.map_map]
  rfl

/-! ## 3. Two arrangements -/

/-- Rearranged programs have rows of the same lines. -/
theorem map_code_rows_of_rearranged (h : p.Rearranged q) (hp : p.Named)
    (hc : settings.captureOptions = false) (hs : (p.scan file settings).outcome = .ok ledger)
    (hs' : (q.scan file' settings).outcome = .ok ledger')
    (ho : ∀ code ∈ p.strings.keys, (p.owner? code).isSome)
    (ho' : ∀ code ∈ q.strings.keys, (q.owner? code).isSome) :
    (table p ledger Selection.all).rows.map Row.code =
      (table q ledger' Selection.all).rows.map Row.code := by
  -- Codes in strict order are determined by which they are.
  refine List.Pairwise.eq_of_mem_iff (List.pairwise_map.mpr rows_table_pairwise)
    (List.pairwise_map.mpr rows_table_pairwise) fun code => ?_
  rw [mem_codes_table_iff hp hs ho, mem_codes_table_iff (h.named hp) hs' ho',
    h.mem_keys_strings_iff, h.emits_iff hc]

theorem untagged_perm_of_rearranged (h : p.Rearranged q) :
    (table p ledger sel).untagged.Perm (table q ledger' sel).untagged := by
  have howner : ∀ code, sel.admitsOwner p code = sel.admitsOwner q code := by
    intro code
    rw [Selection.admitsOwner, Selection.admitsOwner, h.owner?_eq]
  rw [untagged_table, untagged_table, Untagged.select, Untagged.select]
  simp only [howner]
  exact (h.strings.filter _).filter _

/-- If repeats are allowed, it does not depend on the arrangement whether a table is made. -/
theorem exists_table_iff_of_rearranged (h : p.Rearranged q) (hk : settings.onRepeat = .keepFirst) :
    (∃ t, (ofProgram p file sel settings).outcome = .ok t) ↔
      ∃ t, (ofProgram q file' sel settings).outcome = .ok t := by
  rw [exists_outcome_ofProgram_iff_of_keepFirst hk, exists_outcome_ofProgram_iff_of_keepFirst hk]
  refine forall_congr' fun code => ?_
  rw [h.mem_keys_strings_iff, h.owner?_eq]

/-- **Order changes the speakers only.**  Let a loaded program be rearranged, and let repeats be allowed,
options not be captured and no tag be given.  Then a table is made of both arrangements or of neither.
The two tables have rows of the same lines in the same order, with the same texts and comments, and
report the same entries without a line code, up to their order.  If the nodes stay in their order, the
rows are the same altogether. -/
theorem tables_of_rearranged {text : String} (hp : Program.load text = .ok p) (h : p.Rearranged q)
    (file file' : FilePath) (settings : ScanSettings) (hk : settings.onRepeat = .keepFirst)
    (hc : settings.captureOptions = false) :
    ((∃ t, (ofProgram p file Selection.all settings).outcome = .ok t) ↔
        ∃ t', (ofProgram q file' Selection.all settings).outcome = .ok t') ∧
      ∀ t t', (ofProgram p file Selection.all settings).outcome = .ok t →
        (ofProgram q file' Selection.all settings).outcome = .ok t' →
        t.rows.map rowWithoutCharacter = t'.rows.map rowWithoutCharacter ∧
          t.untagged.Perm t'.untagged ∧ (p.nodes = q.nodes → t.rows = t'.rows) := by
  refine ⟨exists_table_iff_of_rearranged h hk, fun t t' ht ht' => ?_⟩
  obtain ⟨ledger, hs, hb⟩ := ofProgram_eq_ok_iff.mp ht
  obtain ⟨ledger', hs', hb'⟩ := ofProgram_eq_ok_iff.mp ht'
  obtain ⟨ho, rfl⟩ := build_eq_ok_iff.mp hb
  obtain ⟨ho', rfl⟩ := build_eq_ok_iff.mp hb'
  have hcodes := map_code_rows_of_rearranged h (Program.named_of_load hp) hc hs hs' ho ho'
  refine ⟨?_, untagged_perm_of_rearranged h, fun hn => ?_⟩
  · rw [map_withoutCharacter_rows hs, map_withoutCharacter_rows hs', hcodes, h.textOf_eq]
  · have hledger : ledger = ledger' := by
      rw [eq_addAll_of_scan hs, eq_addAll_of_scan hs', h.deliveries_eq hn]
    rw [rows_table_eq_map_code hs, rows_table_eq_map_code hs', hcodes, h.textOf_eq, hledger]

/-! A line is in two nodes, and only in the first arrangement somebody has entered before it comes. -/

namespace Example

def regattaDocument : Document where
  nodes := [⟨"Quay", [], [.command "Show NPC Port/Aria", .line "line:1"]⟩,
    ⟨"Ship", [], [.line "line:1", .line "line:2"]⟩]
  strings := [("line:1", "Ahoy!"), ("hail", "Who goes there?"), ("Ship-4", "Bells.")]
  lineInfo := [("line:1", ⟨"Quay"⟩), ("hail", ⟨"Quay"⟩), ("Ship-4", ⟨"Ship"⟩)]

def regatta : Program :=
  ⟨Table.ofEntries (regattaDocument.nodes.map fun n => (n.name, n)),
    Table.ofEntries regattaDocument.strings, Table.ofEntries regattaDocument.lineInfo⟩

/-- All three tables are turned round. -/
def regattaReversed : Program :=
  ⟨Table.ofEntries (regattaDocument.nodes.map fun n => (n.name, n)).reverse,
    Table.ofEntries regattaDocument.strings.reverse, Table.ofEntries regattaDocument.lineInfo.reverse⟩

theorem load_regatta : Program.load (String.ofList regattaDocument.print) = .ok regatta := by
  have hproper : ∀ n ∈ regattaDocument.nodes, ∀ i ∈ n.instructions, i.Proper := by
    simp [regattaDocument, Instruction.Proper]
  exact Program.load_eq_ok_iff.mpr
    ⟨regattaDocument, (Document.takes_document hproper).decode, rfl⟩

theorem rearranged_regatta : regatta.Rearranged regattaReversed where
  nodes := by decide
  strings := by decide
  lineInfo := by decide

theorem tables_of_rearranged_regatta :
    Program.load (String.ofList regattaDocument.print) = .ok regatta ∧
      regatta.Rearranged regattaReversed ∧
      ∃ t t', (ofProgram regatta ⟨"story.json"⟩ Selection.all {}).outcome = .ok t ∧
        (ofProgram regattaReversed ⟨"story.json"⟩ Selection.all {}).outcome = .ok t' ∧
        t.rows.map Row.character = ["", "", "Aria", "Aria"] ∧
        t'.rows.map Row.character = ["", "", "", ""] ∧
        t.rows.map rowWithoutCharacter = t'.rows.map rowWithoutCharacter ∧
        t.untagged.Perm t'.untagged := by
  have hmade : (ofProgram regatta ⟨"story.json"⟩ Selection.all {}).outcome =
      .ok ⟨[⟨"Ship-4", "Bells.", "", ""⟩, ⟨"hail", "Who goes there?", "", ""⟩,
        ⟨"line:1", "Ahoy!", "Aria", ""⟩, ⟨"line:2", "", "Aria", ""⟩],
        [("hail", "Who goes there?"), ("Ship-4", "Bells.")]⟩ :=
    toOption_eq_some_iff.mp (by decide +kernel)
  obtain ⟨hiff, hsame⟩ := tables_of_rearranged load_regatta rearranged_regatta ⟨"story.json"⟩
    ⟨"story.json"⟩ {} rfl rfl
  obtain ⟨t', hmade'⟩ := hiff.mp ⟨_, hmade⟩
  have hspeakers : (ofProgram regattaReversed ⟨"story.json"⟩ Selection.all {}).outcome.toOption.map
      (fun t => t.rows.map Row.character) = some ["", "", "", ""] := by decide +kernel
  rw [hmade'] at hspeakers
  obtain ⟨hrows, huntagged, -⟩ := hsame _ t' hmade hmade'
  exact ⟨load_regatta, rearranged_regatta, _, t', hmade, hmade', rfl, Option.some.inj hspeakers, hrows,
    huntagged⟩

end Example

end LineTable

end DialogueExport
