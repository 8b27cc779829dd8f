import DialogueExport.Program.Load
import DialogueExport.Proofs.Json.Printed
import DialogueExport.Proofs.Program.Nodes

/-!
# Loading what was printed

A document that is printed is loaded as the program it describes, down to the last character of its
texts.  Level by level the printed form is taken back by its reader (`takes_instruction`,
`takes_node`, `takes_lineInfo`, `takes_document`), and a document without repeated names and keys is
its program, entry by entry (`ofDocument_of_nodup`).

One kind of instruction does not survive: an instruction whose opcode has no meaning, but is called
like one that has (`instructionOf_operationOf_iff`).  No document holds such an instruction, and
`Proper` excludes it.

Main statement: `load_print`.
-/

namespace DialogueExport

/-! ## 1. Instructions -/

/-- An instruction that has no meaning here is not named like one that has. -/
def Instruction.Proper (i : Instruction) : Prop :=
  ∀ opcode, i = .other opcode → opcode ∉ ["RunLine", "AddOption", "RunCommand", "ShowOptions"]

open Json (Fills Reader)

namespace Wire

open Json.Reader (takes_text)

/-- An instruction is what it is written as exactly if it is proper. -/
theorem instructionOf_operationOf_iff {i : Instruction} :
    instructionOf (operationOf i) = .ok i ↔ i.Proper := by
  cases i with
  | line | option | command =>
    simp [instructionOf, operationOf, needOperand, Except.map, Instruction.Proper]
  | showOptions => simp [instructionOf, operationOf, Instruction.Proper]
  | other opcode =>
    have hproper : (Instruction.other opcode).Proper ↔ opcode ≠ "RunLine" ∧ opcode ≠ "AddOption" ∧
        opcode ≠ "RunCommand" ∧ opcode ≠ "ShowOptions" := by
      simp [Instruction.Proper]
    rw [hproper]
    constructor
    · intro h
      refine ⟨?_, ?_, ?_, ?_⟩ <;> rintro rfl <;> cases h
    · rintro ⟨hline, hoption, hcommand, hshow⟩
      simp [instructionOf, operationOf, hline, hoption, hcommand, hshow]

theorem takes_operation (op : Operation) :
    (Reader.record operationShape).Takes (printOperation op) op := by
  obtain ⟨opcode, operand⟩ := op
  have hopcode := (takes_text opcode).map fun v (d : OperationDraft) => { d with opcode := some v }
  cases operand with
  | none =>
    have hfills : Fills operationShape.fields operationShape.start
        [("opcode", Json.printString opcode)] ⟨some opcode, none⟩ :=
      .cons rfl rfl hopcode (.nil _)
    exact Json.takes_record hfills rfl
  | some operand =>
    have hquote : (Json.printString operand).head? ≠ some 'n' := by
      simp [Json.printString, Json.printText]
    have hoperand := ((takes_text operand).nullable hquote).map
      fun v (d : OperationDraft) => { d with operand := some v }
    have hfills : Fills operationShape.fields operationShape.start
        [("opcode", Json.printString opcode), ("operand", Json.printString operand)]
        ⟨some opcode, some (some operand)⟩ :=
      .cons rfl rfl hopcode (.cons rfl rfl hoperand (.nil _))
    exact Json.takes_record hfills rfl

/-- A proper instruction is read back. -/
theorem takes_instruction {i : Instruction} (h : i.Proper) :
    instruction.Takes (printInstruction i) i :=
  (takes_operation (operationOf i)).check (instructionOf_operationOf_iff.mpr h)

/-! ## 2. Nodes and declarations -/

/-- A node is read back if its instructions are. -/
theorem takes_node {n : Node} (h : ∀ i ∈ n.instructions, i.Proper) :
    node.Takes (printNode n) n := by
  have hname := (takes_text n.name).map fun v (d : NodeDraft) => { d with name := some v }
  have hlist : (Reader.list Reader.text).Takes (Json.printList (n.tags.map Json.printString))
      n.tags := Json.takes_list fun t _ => takes_text t
  have htags := hlist.map fun v (d : NodeDraft) => { d with tags := some v }
  have hinstructions := (Json.takes_list fun i hi => takes_instruction (h i hi)).map
    fun v (d : NodeDraft) => { d with instructions := some v }
  have hfills : Fills nodeShape.fields nodeShape.start
      [("name", Json.printString n.name),
        ("tags", Json.printList (n.tags.map Json.printString)),
        ("instructions", Json.printList (n.instructions.map printInstruction))]
      ⟨some n.name, some n.tags, some n.instructions⟩ :=
    .cons rfl rfl hname (.cons rfl rfl htags (.cons rfl rfl hinstructions (.nil _)))
  exact Json.takes_record hfills rfl

theorem takes_lineInfo (l : LineInfo) : lineInfo.Takes (printLineInfo l) l := by
  have hnode := (takes_text l.node).map fun v (d : LineInfoDraft) => { d with node := some v }
  have hfills : Fills lineInfoShape.fields lineInfoShape.start
      [("node_name", Json.printString l.node)] ⟨some l.node⟩ :=
    .cons rfl rfl hnode (.nil _)
  exact Json.takes_record hfills rfl

end Wire

/-! ## 3. Documents -/

/-- A document is read back if its instructions are proper, even with repeated names and keys. -/
theorem Document.takes_document {d : Document} (h : ∀ n ∈ d.nodes, ∀ i ∈ n.instructions, i.Proper) :
    Document.reader.Takes d.print d := by
  have hnodes := (Json.takes_list fun n hn => Wire.takes_node (h n hn)).map
    fun v (d : Draft) => { d with nodes := some v }
  have htexts : (Reader.entries Reader.text).Takes
      (Json.printObject (d.strings.map fun e => (e.1, Json.printString e.2))) d.strings :=
    Json.takes_entries fun e _ => Json.Reader.takes_text e.2
  have hstrings := htexts.map fun v (d : Draft) => { d with strings := some v }
  have hplaces : (Reader.entries Wire.lineInfo).Takes
      (Json.printObject (d.lineInfo.map fun e => (e.1, Wire.printLineInfo e.2))) d.lineInfo :=
    Json.takes_entries fun e _ => Wire.takes_lineInfo e.2
  have hinfo := hplaces.map fun v (d : Draft) => { d with lineInfo := some v }
  have hfills : Fills shape.fields shape.start
      [("nodes", Json.printList (d.nodes.map Wire.printNode)),
        ("strings", Json.printObject (d.strings.map fun e => (e.1, Json.printString e.2))),
        ("line_info", Json.printObject (d.lineInfo.map fun e => (e.1, Wire.printLineInfo e.2)))]
      ⟨some d.nodes, some d.strings, some d.lineInfo⟩ :=
    .cons rfl rfl hnodes (.cons rfl rfl hstrings (.cons rfl rfl hinfo (.nil _)))
  exact Json.takes_record hfills rfl

namespace Program

/-- Without repeated names and keys a document is its program, entry by entry. -/
theorem ofDocument_of_nodup {d : Document} (hnames : (d.nodes.map Node.name).Nodup)
    (hstrings : (d.strings.map Prod.fst).Nodup) (hinfo : (d.lineInfo.map Prod.fst).Nodup) :
    ∃ p, ofDocument d = .ok p ∧ p.nodes.entries = d.nodes.map (fun n => (n.name, n)) ∧
      p.strings.entries = d.strings ∧ p.lineInfo.entries = d.lineInfo := by
  have hnodes : ((d.nodes.map fun n => (n.name, n)).map Prod.fst).Nodup := by
    rwa [List.map_map]
  rw [ofDocument, firstRepeat_nil_eq_none_iff.mpr hnames]
  exact ⟨_, rfl, Table.entries_ofEntries_of_nodup _ hnodes,
    Table.entries_ofEntries_of_nodup _ hstrings, Table.entries_ofEntries_of_nodup _ hinfo⟩

/-- **What was printed is loaded back.**  If the names of the nodes and the keys of the tables
differ and all instructions are proper, then the printed document is loaded, and the program has
these nodes under their names, these texts and these declarations, all in this order. -/
theorem load_print {d : Document} (hproper : ∀ n ∈ d.nodes, ∀ i ∈ n.instructions, i.Proper)
    (hnames : (d.nodes.map Node.name).Nodup) (hstrings : (d.strings.map Prod.fst).Nodup)
    (hinfo : (d.lineInfo.map Prod.fst).Nodup) :
    ∃ p, load (String.ofList d.print) = .ok p ∧
      p.nodes.entries = d.nodes.map (fun n => (n.name, n)) ∧
      p.strings.entries = d.strings ∧ p.lineInfo.entries = d.lineInfo := by
  obtain ⟨p, hp, hentries⟩ := ofDocument_of_nodup hnames hstrings hinfo
  have hread : Document.reader.decode (String.ofList d.print) = .ok d :=
    (Document.takes_document hproper).decode
  exact ⟨p, load_eq_ok_iff.mpr ⟨d, hread, hp⟩, hentries⟩

/-! Quotes, backslashes, control characters and letters of all kinds come back. -/

namespace Example

def beacon : Document where
  nodes := [⟨"Quay \"1\"", ["act\\1", ""],
      [.line "line:1", .option "line:é", .showOptions, .command "Show\tNPC\nPort/Aria",
        .other "Stop"]⟩,
    ⟨"船🚢", [], []⟩]
  strings := [("line:é", "\u0000\u001f\u007f"), ("line:1", "")]
  lineInfo := [("line:1", ⟨"船🚢"⟩)]

theorem load_print_beacon :
    (∀ n ∈ beacon.nodes, ∀ i ∈ n.instructions, i.Proper) ∧
      ∃ p, load (String.ofList beacon.print) = .ok p ∧
        p.nodes.entries = beacon.nodes.map (fun n => (n.name, n)) ∧
        p.strings.entries = beacon.strings ∧ p.lineInfo.entries = beacon.lineInfo := by
  have hproper : ∀ n ∈ beacon.nodes, ∀ i ∈ n.instructions, i.Proper := by
    simp [beacon, Instruction.Proper]
  exact ⟨hproper, load_print hproper (by decide) (by decide) (by decide)⟩

end Example

end Program

end DialogueExport
