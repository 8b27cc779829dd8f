import DialogueExport.Json.Compound
import DialogueExport.Json.Printer
import DialogueExport.Program

/-!
# The written form of programs

How instructions, nodes, declarations and rows are written in a document: for each of them a
reader and a printer (section 10.2 of the specification).  An instruction is written as the name of its opcode with an optional
operand.  The opcodes that deliver something need an operand; any other opcode drops it.

The readers are built from `Shape`s, so each of these records may be written as an object or
as the list of its fields.
-/

namespace DialogueExport

open Json (Reader RecordField Shape)

namespace Wire

/-! ## 1. Fields -/

/-- A field that is kept in a place of the draft. -/
def field {σ β : Type} (name : String) (get : σ → Option β) (set : β → σ → σ)
    (value : Reader β) : RecordField σ :=
  ⟨name, fun draft => (get draft).isSome, value.map set⟩

/-- The value of a field that a record must have. -/
def need {β : Type} (name : String) : Option β → Except String β
  | some b => .ok b
  | none => .error name

/-! ## 2. Instructions -/

/-- An instruction as it is written (`RawInstruction`). -/
structure Operation where
  opcode : String
  operand : Option String
deriving DecidableEq

/-- The fields of an operation that were read.  An operand may be there and be null. -/
structure OperationDraft where
  opcode : Option String
  operand : Option (Option String)

def operationShape : Shape OperationDraft Operation where
  name := "RawInstruction"
  fields := [
    field "opcode" (·.opcode) (fun v d => { d with opcode := some v }) Reader.text,
    field "operand" (·.operand) (fun v d => { d with operand := some v })
      (Reader.nullable Reader.text)]
  start := ⟨none, none⟩
  finish d := do
    let opcode ← need "opcode" d.opcode
    return ⟨opcode, d.operand.getD none⟩

/-- The operand that an opcode must have, or why the instruction is refused. -/
def needOperand (op : Operation) : Except String String :=
  match op.operand with
  | some operand => .ok operand
  | none => .error (op.opcode ++ " instruction is missing its operand")

/-- What a written instruction does (`try_from`). -/
def instructionOf (op : Operation) : Except String Instruction :=
  if op.opcode = "RunLine" then (needOperand op).map .line
  else if op.opcode = "AddOption" then (needOperand op).map .option
  else if op.opcode = "RunCommand" then (needOperand op).map .command
  else if op.opcode = "ShowOptions" then .ok .showOptions
  else .ok (.other op.opcode)

/-- How an instruction is written (`from`, with its name from `opcode`). -/
def operationOf : Instruction → Operation
  | .line code => ⟨"RunLine", some code⟩
  | .option code => ⟨"AddOption", some code⟩
  | .showOptions => ⟨"ShowOptions", none⟩
  | .command text => ⟨"RunCommand", some text⟩
  | .other opcode => ⟨opcode, none⟩

def instruction : Reader Instruction := (Reader.record operationShape).check instructionOf

/-- An operand that is missing is not written. -/
def printOperation (op : Operation) : List Char :=
  Json.printObject <| ("opcode", Json.printString op.opcode) ::
    match op.operand with
    | some operand => [("operand", Json.printString operand)]
    | none => []

def printInstruction (i : Instruction) : List Char := printOperation (operationOf i)

/-! ## 3. Nodes and declarations -/

/-- The fields of a node that were read. -/
structure NodeDraft where
  name : Option String
  tags : Option (List String)
  instructions : Option (List Instruction)

def nodeShape : Shape NodeDraft Node where
  name := "Node"
  fields := [
    field "name" (·.name) (fun v d => { d with name := some v }) Reader.text,
    field "tags" (·.tags) (fun v d => { d with tags := some v }) (Reader.list Reader.text),
    field "instructions" (·.instructions) (fun v d => { d with instructions := some v })
      (Reader.list instruction)]
  start := ⟨none, none, none⟩
  finish d := do
    let name ← need "name" d.name
    return ⟨name, d.tags.getD [], d.instructions.getD []⟩

def node : Reader Node := Reader.record nodeShape

def printNode (n : Node) : List Char :=
  Json.printObject [
    ("name", Json.printString n.name),
    ("tags", Json.printList (n.tags.map Json.printString)),
    ("instructions", Json.printList (n.instructions.map printInstruction))]

/-- The field of a declaration, if it was read. -/
structure LineInfoDraft where
  node : Option String

def lineInfoShape : Shape LineInfoDraft LineInfo where
  name := "LineInfo"
  fields := [field "node_name" (·.node) (fun v d => { d with node := some v }) Reader.text]
  start := ⟨none⟩
  finish d := do
    let node ← need "node_name" d.node
    return ⟨node⟩

def lineInfo : Reader LineInfo := Reader.record lineInfoShape

def printLineInfo (l : LineInfo) : List Char :=
  Json.printObject [("node_name", Json.printString l.node)]

/-! ## 4. Rows -/

/-- The names of the columns of the exported table (`CSV_HEADER`), which are also the fields of a
row. -/
def columns : List String := ["LineCode", "LineText", "Character", "Comment"]

/-- The fields of a row that were read. -/
structure RowDraft where
  code : Option String
  text : Option String
  character : Option String
  comment : Option String

def rowShape : Shape RowDraft Row where
  name := "LineRecord"
  fields := [
    field "LineCode" (·.code) (fun v d => { d with code := some v }) Reader.text,
    field "LineText" (·.text) (fun v d => { d with text := some v }) Reader.text,
    field "Character" (·.character) (fun v d => { d with character := some v }) Reader.text,
    field "Comment" (·.comment) (fun v d => { d with comment := some v }) Reader.text]
  start := ⟨none, none, none, none⟩
  finish d := do
    let code ← need "LineCode" d.code
    let text ← need "LineText" d.text
    let character ← need "Character" d.character
    let comment ← need "Comment" d.comment
    return ⟨code, text, character, comment⟩

def row : Reader Row := Reader.record rowShape

def printRow (r : Row) : List Char :=
  Json.printObject [
    ("LineCode", Json.printString r.code),
    ("LineText", Json.printString r.text),
    ("Character", Json.printString r.character),
    ("Comment", Json.printString r.comment)]

end Wire

end DialogueExport
