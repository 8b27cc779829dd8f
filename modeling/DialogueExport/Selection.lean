import DialogueExport.ExportError

/-!
# Which lines are exported

A line belongs to the node in which it was declared.  A tag, if one is given, selects the lines
whose nodes carry it.  The node of a line is looked up in any case, so a line without a node
is an error whether a tag is given or not (sections 4.2 and 10.4 of the specification).
-/

namespace DialogueExport

/-- The node in which a line was declared (`resolve_owning_node`). -/
def Program.owner (p : Program) (file : FilePath) (code : String) : Except ExportError Node :=
  match p.lineInfo.get? code with
  | none => .error (.noLineInfo file code (p.textOf code))
  | some info =>
    match p.nodes.get? info.node with
    | none => .error (.noNode file code info.node)
    | some node => .ok node

/-- The tag that selects lines; without one all are selected (`TagFilter`). -/
structure Selection where
  tag : Option String
deriving DecidableEq

namespace Selection

/-- No tag (`allow_all`). -/
def all : Selection := ⟨none⟩

/-- Whether the lines of a node are exported (`allows_node`). -/
def admitsNode (sel : Selection) (node : Node) : Bool :=
  match sel.tag with
  | some tag => node.hasTag tag
  | none => true

/-- Whether a line is exported (`allows_line`). -/
def admits (sel : Selection) (p : Program) (file : FilePath) (code : String) :
    Except ExportError Bool :=
  (p.owner file code).map sel.admitsNode

/-- Whether the lines of the node with this name are exported; not if there is no such node.
`build_line_table` asks this of a line that only the scan has seen. -/
def admitsName (sel : Selection) (p : Program) (name : String) : Bool :=
  (p.nodes.get? name).any sel.admitsNode

@[simp] theorem admitsNode_all (node : Node) : all.admitsNode node = true := rfl

end Selection

end DialogueExport
