import DialogueExport.Table

/-!
# Compiled dialogue programs

A program is a list of nodes, each a list of instructions, with a table of the texts of its
lines and a table that says in which node each line was declared (section 3 of the
specification).  The tables come from a document and nothing is assumed about how they fit
together: a line may lack a text or a declaration, and a declaration may name a node that is not
there.

`Program.stream` is the program as the scan sees it: all instructions in the order of the
nodes, each with the name of its node.
-/

namespace DialogueExport

/-! ## 1. Nodes -/

/-- What an instruction does, as far as lines and speakers are concerned. -/
inductive Instruction where
  /-- Delivers the line with this code. -/
  | line (code : String)
  /-- Queues the line with this code as an option. -/
  | option (code : String)
  /-- Presents the queued options. -/
  | showOptions
  /-- Directs the scene by a free text. -/
  | command (text : String)
  /-- Any other instruction, of which only the name is kept. -/
  | other (opcode : String)
deriving DecidableEq

/-- A named unit of dialogue. -/
structure Node where
  name : String
  /-- Labels by which lines are selected for export. -/
  tags : List String
  instructions : List Instruction
deriving DecidableEq

/-- Where a line was declared. -/
structure LineInfo where
  /-- The name of the node that owns the line. -/
  node : String
deriving DecidableEq

/-- Whether a node has a tag (`has_tag`); capitals count. -/
def Node.hasTag (n : Node) (tag : String) : Bool := n.tags.contains tag

/-! ## 2. Programs -/

/-- A compiled program. -/
structure Program where
  /-- The nodes by name. -/
  nodes : Table String Node
  /-- The text of each line code. -/
  strings : Table String String
  /-- The declaration of each line code. -/
  lineInfo : Table String LineInfo

namespace Program

/-- The text of a line; empty if the program has none (`resolve_text`). -/
def textOf (p : Program) (code : String) : String := p.strings.getD code ""

/-- All instructions, each with the name of its node, in the order in which `scan_program` visits
them. -/
def stream (p : Program) : List (String × Instruction) :=
  p.nodes.values.flatMap fun n => n.instructions.map fun i => (n.name, i)

/-- The number of instructions of all nodes (`instruction_count`). -/
def instructionCount (p : Program) : Nat := p.stream.length

end Program

/-! ## 3. Rows of the exported table -/

/-- One row of the exported table (`LineRecord`). -/
structure Row where
  code : String
  text : String
  /-- The speaker, empty if there was none. -/
  character : String
  /-- Left to the translators. -/
  comment : String
deriving DecidableEq

end DialogueExport
