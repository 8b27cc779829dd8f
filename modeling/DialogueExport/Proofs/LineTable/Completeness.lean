import DialogueExport.Proofs.LineTable.Origin
import DialogueExport.Proofs.Scan.Emitted

/-!
# No line is lost

A line that the string table does not know is left out of the table without a word if the node in
which it was delivered cannot be found.  In a program that was loaded this does not happen: the scan
records a node by its name (`get?_of_firstDelivery`), and every node is found by its own name, so the
node of every observation is found (`Program.Named.exists_node_of_scan`).  Without a tag the table
therefore holds the string table and all that the program delivers, each line once and under the text
of the string table (`rows_of_load`).
-/

namespace DialogueExport

open Scan

variable {p : Program} {file : FilePath} {settings : ScanSettings} {ledger : Ledger}
  {code : String} {o : Observation}

/-! ## 1. What an observation holds -/

/-- An observation comes from somewhere in the stream and has the text that the string table gives
its line. -/
theorem Scan.exists_stream_of_observation (h : (p.scan file settings).outcome = .ok ledger)
    (ho : ledger.observations.get? code = some o) :
    o.text = p.textOf code ∧ ∃ i, (o.node, i) ∈ p.stream := by
  have hm : code ∈ ledger.observations.keys := Table.mem_keys_iff.mpr ⟨o, ho⟩
  obtain ⟨k, hk⟩ := (mem_keys_iff_firstDelivery h).mp hm
  obtain ⟨⟨node, i⟩, hs, ho'⟩ := get?_of_firstDelivery h hk
  obtain rfl := Option.some.inj (ho.symm.trans ho')
  exact ⟨rfl, i, List.mem_of_getElem? hs⟩

/-- The node of an observation is there. -/
theorem Program.Named.exists_node_of_scan (hp : p.Named)
    (h : (p.scan file settings).outcome = .ok ledger)
    (ho : ledger.observations.get? code = some o) :
    ∃ n, p.nodes.get? o.node = some n ∧ n.name = o.node := by
  obtain ⟨-, i, hi⟩ := exists_stream_of_observation h ho
  obtain ⟨n, hn, hname, -⟩ := mem_stream_iff.mp hi
  exact ⟨n, hp.get?_nodes_iff.mpr ⟨hn, hname⟩, hname⟩

/-- The lines that are observed are those that the program delivers. -/
theorem Scan.mem_keys_iff_emits (h : (p.scan file settings).outcome = .ok ledger) :
    code ∈ ledger.observations.keys ↔ Emits settings p.instructions code := by
  rw [mem_keys_iff_firstDelivery h, ← exists_deliversAt_iff]
  constructor
  · rintro ⟨k, hk, -⟩
    exact ⟨k, hk⟩
  · rintro ⟨k, hk⟩
    exact exists_firstDelivery hk

/-! ## 2. Without a tag -/

namespace LineTable

/-- Without a tag a line has a row exactly if the string table knows it or the program delivers
it. -/
theorem mem_codes_table_iff (hp : p.Named) (hs : (p.scan file settings).outcome = .ok ledger)
    (ho : ∀ code ∈ p.strings.keys, (p.owner? code).isSome) :
    code ∈ (table p ledger Selection.all).rows.map Row.code ↔
      code ∈ p.strings.keys ∨ Emits settings p.instructions code := by
  rw [List.mem_map, exists_row_iff, ← mem_keys_iff_emits hs, Selection.admitsOwner_all]
  constructor
  · rintro (⟨hk, -⟩ | ⟨-, o, hobs, -⟩)
    · exact Or.inl hk
    · exact Or.inr (Table.mem_keys_iff.mpr ⟨o, hobs⟩)
  · intro h
    by_cases hk : code ∈ p.strings.keys
    · exact Or.inl ⟨hk, ho code hk⟩
    · obtain ⟨o, hobs⟩ := Table.mem_keys_iff.mp (h.resolve_left hk)
      obtain ⟨n, hn, -⟩ := hp.exists_node_of_scan hs hobs
      exact Or.inr ⟨hk, o, hobs, Selection.admitsName_iff.mpr ⟨n, hn, Selection.passes_all n⟩⟩

/-- After a scan a row has the text that the string table gives its line. -/
theorem text_eq_textOf {sel : Selection} (hs : (p.scan file settings).outcome = .ok ledger) {r : Row}
    (hr : r ∈ (table p ledger sel).rows) : r.text = p.textOf r.code := by
  obtain ⟨hknown, hunknown⟩ := text_of_mem_rows hr
  by_cases hk : r.code ∈ p.strings.keys
  · rw [Program.textOf, Table.getD, hknown hk, Option.getD_some]
  · obtain ⟨o, ho, htext⟩ := hunknown hk
    rw [htext, (exists_stream_of_observation hs ho).1]

/-- **No line is lost.**  If a table is made of a loaded program without a tag, its lines are those of
the string table and all that the program delivers, each once, under the text of the string table or,
if that has none, without a text; and the node of every observation is there. -/
theorem rows_of_load {text : String} {t : LineTable} (hp : Program.load text = .ok p)
    (ht : (ofProgram p file Selection.all settings).outcome = .ok t) :
    (t.rows.map Row.code).Nodup ∧
      (∀ code, code ∈ t.rows.map Row.code ↔
        code ∈ p.strings.keys ∨ Emits settings p.instructions code) ∧
      (∀ r ∈ t.rows, r.text = (p.strings.get? r.code).getD "") ∧
      ∃ ledger, (p.scan file settings).outcome = .ok ledger ∧
        ∀ code o, ledger.observations.get? code = some o →
          ∃ n, p.nodes.get? o.node = some n ∧ n.name = o.node := by
  have hnamed : p.Named := Program.named_of_load hp
  obtain ⟨ledger, hs, hb⟩ := ofProgram_eq_ok_iff.mp ht
  obtain ⟨ho, rfl⟩ := build_eq_ok_iff.mp hb
  refine ⟨nodup_codes_table, fun code => mem_codes_table_iff hnamed hs ho,
    fun r hr => text_eq_textOf hs hr, ledger, hs, fun code o hobs => ?_⟩
  exact hnamed.exists_node_of_scan hs hobs

/-! An option that waits in one node and is shown in the next is not lost. -/

namespace Example

theorem rows_of_load_crossing :
    (ofProgram crossing ⟨"story.json"⟩ Selection.all captured).outcome =
        .ok ⟨[⟨"line:1", "", "Fennel", ""⟩], []⟩ ∧
      Emits captured crossing.instructions "line:1" ∧
      "line:1" ∈ [(⟨"line:1", "", "Fennel", ""⟩ : Row)].map Row.code := by
  have ht : (ofProgram crossing ⟨"story.json"⟩ Selection.all captured).outcome =
      .ok ⟨[⟨"line:1", "", "Fennel", ""⟩], []⟩ := rfl
  have he : Emits captured crossing.instructions "line:1" :=
    Or.inr ⟨rfl, 0, 1, by decide, rfl, rfl⟩
  exact ⟨ht, he, ((rows_of_load load_crossing ht).2.1 "line:1").mpr (Or.inr he)⟩

end Example

end LineTable

end DialogueExport
