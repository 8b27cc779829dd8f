import DialogueExport.Proofs.LineTable.Rows
import DialogueExport.Proofs.Program.Nodes
import DialogueExport.Proofs.Scan.Position

/-!
# Where the lines of a table come from

With a tag, a table should hold only lines that nodes with the tag hold.  For a line that the string
table does not know the decision rests on the node in which it was delivered first
(`exists_row_iff_of_scan`).  A line of its own is delivered in the node that holds it.  An option is
delivered in the node that shows it, and that may be a later one: it strays (`Program.Strays`) if it
is shown under the tag and no node with the tag holds it.  The lines that stray are exactly the
ones that should not be in the table and are (`originates_iff_of_scan`); there are none unless options
are captured (`not_strays_of_not_capture`).

Main statement: `rows_originate_iff`.
-/

namespace DialogueExport

open Scan

/-! ## 1. Lines that stray -/

/-- A line strays if no node with the tag holds it, and it is first delivered as an option that a
node with the tag shows. -/
def Program.Strays (p : Program) (settings : ScanSettings) (tag code : String) : Prop :=
  ¬ p.Originates tag code ∧
    ∃ k n, FirstDelivery settings p.instructions code k ∧ n ∈ p.nodes.values ∧ tag ∈ n.tags ∧
      p.stream[k]? = some (n.name, .showOptions)

variable {p : Program} {file : FilePath} {settings : ScanSettings} {tag code : String}

/-- **Without options nothing strays.** -/
theorem Program.not_strays_of_not_capture (hs : settings.captureOptions = false) :
    ¬ p.Strays settings tag code := by
  rintro ⟨-, k, n, hk, -, -, hsk⟩
  rcases hk.1 with h | ⟨h, -, -⟩
  · rw [getElem?_instructions hsk] at h
    cases h
  · rw [hs] at h
    cases h

/-- A line of its own is delivered in the node that holds it. -/
theorem Program.Named.originates_of_line (hp : p.Named) {k : Nat} {n : Node}
    (hn : n ∈ p.nodes.values) (ht : tag ∈ n.tags)
    (hk : p.stream[k]? = some (n.name, .line code)) : p.Originates tag code := by
  obtain ⟨m, hm, hname, hline⟩ := mem_stream_iff.mp (List.mem_of_getElem? hk)
  have hmn : some m = some n :=
    (hp.get?_nodes_iff.mpr ⟨hm, hname⟩).symm.trans (hp.get?_nodes_iff.mpr ⟨hn, rfl⟩)
  obtain rfl := Option.some.inj hmn
  exact ⟨m, hn, ht, Or.inl hline⟩

/-! ## 2. Lines that only the scan knows -/

namespace LineTable

/-- A line that the string table does not know has a row exactly if the node in which it is first
delivered passes. -/
theorem exists_row_iff_of_scan (hp : p.Named) {ledger : Ledger} {sel : Selection}
    (hs : (p.scan file settings).outcome = .ok ledger) (hc : code ∉ p.strings.keys) :
    (∃ r ∈ (table p ledger sel).rows, r.code = code) ↔
      ∃ k n i, FirstDelivery settings p.instructions code k ∧ n ∈ p.nodes.values ∧
        p.stream[k]? = some (n.name, i) ∧ sel.Passes n := by
  simp only [exists_row_iff, hc, false_and, false_or, not_false_eq_true, true_and,
    Selection.admitsName_iff, hp.get?_nodes_iff]
  constructor
  · rintro ⟨o, ho, n, ⟨hn, hname⟩, hpass⟩
    have hm : code ∈ ledger.observations.keys := Table.mem_keys_iff.mpr ⟨o, ho⟩
    obtain ⟨k, hk⟩ := (mem_keys_iff_firstDelivery hs).mp hm
    obtain ⟨⟨node, i⟩, hsk, ho'⟩ := get?_of_firstDelivery hs hk
    obtain rfl := Option.some.inj (ho.symm.trans ho')
    obtain rfl : n.name = node := hname
    exact ⟨k, n, i, hk, hn, hsk, hpass⟩
  · rintro ⟨k, n, i, hk, hn, hsk, hpass⟩
    obtain ⟨s, hs', ho⟩ := get?_of_firstDelivery hs hk
    obtain rfl := Option.some.inj (hsk.symm.trans hs')
    exact ⟨_, ho, n, ⟨hn, rfl⟩, hpass⟩

/-- All rows of lines that only the scan knows come from nodes with the tag exactly if no such line
strays. -/
theorem originates_iff_of_scan (hp : p.Named) {ledger : Ledger}
    (hs : (p.scan file settings).outcome = .ok ledger) :
    (∀ r ∈ (table p ledger ⟨some tag⟩).rows, r.code ∉ p.strings.keys → p.Originates tag r.code) ↔
      ∀ code, code ∉ p.strings.keys → ¬ p.Strays settings tag code := by
  constructor
  · rintro h code hc ⟨hno, k, n, hk, hn, htag, hsk⟩
    have hpass : Selection.Passes ⟨some tag⟩ n := fun _ h => Option.some.inj h ▸ htag
    obtain ⟨r, hr, rfl⟩ :=
      (exists_row_iff_of_scan hp hs hc).mpr ⟨k, n, _, hk, hn, hsk, hpass⟩
    exact hno (h r hr hc)
  · intro h r hr hc
    obtain ⟨k, n, i, hk, hn, hsk, hpass⟩ :=
      (exists_row_iff_of_scan hp hs hc).mp ⟨r, hr, rfl⟩
    have htag : tag ∈ n.tags := hpass tag rfl
    by_contra hno
    rcases instruction_of_deliversAt hk.1 hsk with rfl | rfl
    · exact hno (hp.originates_of_line hn htag hsk)
    · exact h r.code hc ⟨hno, k, n, hk, hn, htag, hsk⟩

/-- **Where rows come from.**  All rows of lines that the string table does not know come from nodes
with the tag exactly if no such line strays, and so they do unless options are captured. -/
theorem rows_originate_iff {text : String} {t : LineTable} (hp : Program.load text = .ok p)
    (ht : (ofProgram p file ⟨some tag⟩ settings).outcome = .ok t) :
    ((∀ r ∈ t.rows, r.code ∉ p.strings.keys → p.Originates tag r.code) ↔
      ∀ code, code ∉ p.strings.keys → ¬ p.Strays settings tag code) ∧
    (settings.captureOptions = false →
      ∀ r ∈ t.rows, r.code ∉ p.strings.keys → p.Originates tag r.code) := by
  obtain ⟨ledger, hs, hb⟩ := ofProgram_eq_ok_iff.mp ht
  obtain ⟨-, rfl⟩ := build_eq_ok_iff.mp hb
  have hiff := @originates_iff_of_scan p file settings tag (Program.named_of_load hp) ledger hs
  exact ⟨hiff, fun hcapture => hiff.mpr fun _ _ => Program.not_strays_of_not_capture hcapture⟩

/-! ## 3. An option that crosses nodes -/

namespace Example

/-- The option waits in a node without the tag and is shown in one that has it. -/
def crossingDocument : Document where
  nodes := [⟨"Quay", [], [.option "line:1"]⟩, ⟨"Ship", ["act1"], [.showOptions]⟩]
  strings := []
  lineInfo := []

def crossing : Program :=
  ⟨Table.ofEntries [("Quay", ⟨"Quay", [], [.option "line:1"]⟩),
    ("Ship", ⟨"Ship", ["act1"], [.showOptions]⟩)], Table.empty, Table.empty⟩

def captured : ScanSettings := { captureOptions := true }

theorem load_crossing : Program.load (String.ofList crossingDocument.print) = .ok crossing := by
  have hrun : Document.reader.run crossingDocument.print = .ok (crossingDocument, []) :=
    toOption_eq_some_iff.mp (by decide +kernel)
  rw [← String.toList_ofList (l := crossingDocument.print)] at hrun
  exact Program.load_eq_ok_iff.mpr
    ⟨crossingDocument, Json.Reader.decode_eq_ok_iff.mpr ⟨[], hrun, rfl⟩, rfl⟩

theorem ofProgram_crossing :
    (ofProgram crossing ⟨"story.json"⟩ ⟨some "act1"⟩ captured).outcome =
      .ok ⟨[⟨"line:1", "", "Fennel", ""⟩], []⟩ := rfl

theorem strays_crossing : crossing.Strays captured "act1" "line:1" :=
  ⟨by decide, 1, ⟨"Ship", ["act1"], [.showOptions]⟩, by decide, by decide, by decide, rfl⟩

/-- Its row is there, though no node with the tag holds it. -/
theorem rows_originate_iff_crossing :
    crossing.Strays captured "act1" "line:1" ∧
      ¬ ∀ r ∈ [(⟨"line:1", "", "Fennel", ""⟩ : Row)], r.code ∉ crossing.strings.keys →
        crossing.Originates "act1" r.code :=
  ⟨strays_crossing, fun h =>
    (rows_originate_iff load_crossing ofProgram_crossing).1.mp h "line:1" (by decide)
      strays_crossing⟩

/-- Rows do not always come from nodes with the tag. -/
theorem not_forall_rows_originate :
    ¬ ∀ (text : String) (p : Program) (file : FilePath) (settings : ScanSettings) (tag : String)
      (t : LineTable), Program.load text = .ok p →
      (ofProgram p file ⟨some tag⟩ settings).outcome = .ok t →
      ∀ r ∈ t.rows, r.code ∉ p.strings.keys → p.Originates tag r.code := by
  intro h
  have hline : crossing.Originates "act1" "line:1" :=
    h _ crossing ⟨"story.json"⟩ captured "act1" _ load_crossing ofProgram_crossing
      ⟨"line:1", "", "Fennel", ""⟩ (List.mem_singleton.mpr rfl) (by decide)
  exact absurd hline (by decide)

end Example

end LineTable

end DialogueExport
