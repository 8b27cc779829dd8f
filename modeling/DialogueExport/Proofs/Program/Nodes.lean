import DialogueExport.Outcome
import DialogueExport.Program.Load

/-!
# The nodes of a program

A program is any table of nodes, and what a name finds in it need not be a node of that name.  In
a program that was loaded it is (`named_of_load`), so there the node that an instruction came from
can be told from its name alone (`Named.get?_nodes_iff`).
-/

namespace DialogueExport

namespace Program

/-- Every node is found by its own name. -/
def Named (p : Program) : Prop := ∀ e ∈ p.nodes.entries, e.1 = e.2.name

/-- A text is a program exactly if it is read as a document and the document names no node twice. -/
theorem load_eq_ok_iff {text : String} {p : Program} :
    load text = .ok p ↔ ∃ d, Document.reader.decode text = .ok d ∧ ofDocument d = .ok p := by
  unfold load
  cases Document.reader.decode text with
  | error e => simp
  | ok d => simp

/-- **Names of nodes.**  In a program that was loaded every node is found by its own name. -/
theorem named_of_load {text : String} {p : Program} (h : load text = .ok p) : p.Named := by
  obtain ⟨d, -, hd⟩ := load_eq_ok_iff.mp h
  intro e he
  rw [nodes_ofDocument hd] at he
  obtain ⟨n, -, rfl⟩ := List.mem_map.mp he
  rfl

theorem Named.get?_nodes_iff {p : Program} (hp : p.Named) {name : String} {n : Node} :
    p.nodes.get? name = some n ↔ n ∈ p.nodes.values ∧ n.name = name := by
  rw [← Table.mem_entries_iff, Table.values, List.mem_map]
  constructor
  · intro h
    exact ⟨⟨(name, n), h, rfl⟩, (hp _ h).symm⟩
  · rintro ⟨⟨⟨name', n'⟩, h, rfl⟩, rfl⟩
    obtain rfl : name' = n'.name := hp _ h
    exact h

/-- An instruction comes along in the stream under the names of the nodes that hold it. -/
theorem mem_stream_iff {p : Program} {name : String} {i : Instruction} :
    (name, i) ∈ p.stream ↔ ∃ n ∈ p.nodes.values, n.name = name ∧ i ∈ n.instructions := by
  simp only [stream, List.mem_flatMap, List.mem_map, Prod.mk.injEq]
  constructor
  · rintro ⟨n, hn, i, hi, rfl, rfl⟩
    exact ⟨n, hn, rfl, hi⟩
  · rintro ⟨n, hn, rfl, hi⟩
    exact ⟨n, hn, i, hi, rfl, rfl⟩

/-- A node with the tag holds the line, as a line of its own or as an option. -/
def Originates (p : Program) (tag code : String) : Prop :=
  ∃ n ∈ p.nodes.values, tag ∈ n.tags ∧
    (.line code ∈ n.instructions ∨ .option code ∈ n.instructions)

instance (p : Program) (tag code : String) : Decidable (p.Originates tag code) :=
  inferInstanceAs (Decidable (∃ n ∈ p.nodes.values, _ ∧ (_ ∨ _)))

end Program

end DialogueExport
