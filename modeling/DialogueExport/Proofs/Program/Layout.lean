import Mathlib.Logic.Relation
import DialogueExport.Proofs.Json.Layout
import DialogueExport.Proofs.Program.Extent
import DialogueExport.Proofs.Program.Nodes

/-!
# The layout of a document does not matter

A document, its nodes, their instructions and the declarations are records, and each of them may be
written in many ways.  Here are the fields of these records with their defaults, as a table of slots
per record, and the proof that the readers go by them.  A document that was changed at any of its
records, any number of times, and written with any white space, is still the same program.

Main statement: `load_of_changes`.
-/

namespace DialogueExport

open Json (Fits Kept ListChange Reader RecordChange Slot Spelled TableChange Tree)

/-! ## 1. The slots -/

namespace Wire

def instructionSlots : List Slot := [.plain "opcode" none, .plain "operand" (some Tree.null)]

def nodeSlots : List Slot := [
  .plain "name" none,
  .plain "tags" (some (.list [])),
  ⟨"instructions", some (.list []), ListChange (RecordChange instructionSlots)⟩]

def lineInfoSlots : List Slot := [.plain "node_name" none]

end Wire

/-- The entries of the two tables are data: their order stays. -/
def Document.slots : List Slot := [
  ⟨"nodes", some (.list []), ListChange (RecordChange Wire.nodeSlots)⟩,
  .plain "strings" (some (.object [])),
  ⟨"line_info", some (.object []), TableChange (RecordChange Wire.lineInfoSlots)⟩]

/-! ## 2. What is found in a tree -/

namespace Wire

open Json.Reader (closed_finds)

theorem finds_instruction : instruction.Finds instruction.find? :=
  closed_finds.check instructionOf (closed_finds.record (closed_operation closed_finds))

theorem find?_instruction (t : Tree) : instruction.find? t =
    (operationShape.find? t).bind fun op => (instructionOf op).toOption :=
  ((Reader.finds_record (closed_operation closed_finds)).check instructionOf).find?_eq t

theorem finds_node : node.Finds nodeShape.find? := Reader.finds_record (closed_node closed_finds)

theorem finds_lineInfo : lineInfo.Finds lineInfoShape.find? :=
  Reader.finds_record (closed_lineInfo closed_finds)

end Wire

theorem Document.finds_reader : reader.Finds shape.find? :=
  Reader.finds_record (closed_fields Reader.closed_finds)

/-! ## 3. The places of the fields -/

namespace Wire

variable {σ α β γ : Type} {name : String} {get : σ → Option β} {set : β → σ → σ}
  {value : Reader β} {find : Tree → Option β}

theorem find?_field (t : Tree) :
    (field name get set value).read.find? t = (value.find? t).map set := by
  change ((Json.readMapped set value t.compact).toOption).map Prod.fst = _
  rw [Json.readMapped, Json.toOption_map, Reader.find?, Option.map_map, Option.map_map]
  rfl

/-- A field writes what was found in some tree. -/
theorem exists_of_writes {w : σ → σ} (h : (field name get set value).Writes w) :
    ∃ t v, value.find? t = some v ∧ set v = w := by
  obtain ⟨t, ht⟩ := h
  rw [find?_field, Option.map_eq_some_iff] at ht
  obtain ⟨v, hv, hw⟩ := ht
  exact ⟨t, v, hv, hw⟩

/-- Two fields that are kept in different places of the draft. -/
theorem independent_field {name' : String} {get' : σ → Option γ} {set' : γ → σ → σ}
    {value' : Reader γ} (hname : name ≠ name') (hleft : ∀ v d, get' (set v d) = get' d)
    (hright : ∀ v d, get (set' v d) = get d)
    (hcomm : ∀ v v' d, set v (set' v' d) = set' v' (set v d)) :
    Json.Independent (field name get set value) (field name' get' set' value') where
  names := hname
  left hw d := by
    obtain ⟨-, v, -, rfl⟩ := exists_of_writes hw
    exact congrArg Option.isSome (hleft v d)
  right hw d := by
    obtain ⟨-, v, -, rfl⟩ := exists_of_writes hw
    exact congrArg Option.isSome (hright v d)
  comm hv hw d := by
    obtain ⟨-, v, -, rfl⟩ := exists_of_writes hv
    obtain ⟨-, v', -, rfl⟩ := exists_of_writes hw
    exact hcomm v v' d

/-- A field that is kept in its place is there once it was written. -/
theorem isSet_field {w : σ → σ} (hw : (field name get set value).Writes w)
    (hset : ∀ v d, get (set v d) = some v) (d : σ) :
    (field name get set value).isSet (w d) = true := by
  obtain ⟨-, v, -, rfl⟩ := exists_of_writes hw
  exact (congrArg Option.isSome (hset v d)).trans rfl

theorem fits_field {shape : Json.Shape σ α} {slot : Slot} (hname : slot.name = name)
    (hfinds : value.Finds find) (hkept : Kept slot.change find)
    (hdefault : ∀ t, slot.default? = some t → ∃ v, find t = some v ∧
      ∀ d, get d = none → shape.finish (set v d) = shape.finish d) :
    slot.Fits shape (field name get set value) where
  name := hname
  kept := by
    intro t t' ht w hw
    rw [find?_field, hfinds.find?_eq] at hw ⊢
    obtain ⟨v, hv, rfl⟩ := Option.map_eq_some_iff.mp hw
    exact Option.map_eq_some_iff.mpr ⟨v, hkept ht v hv, rfl⟩
  default := by
    intro t ht
    obtain ⟨v, hv, hfin⟩ := hdefault t ht
    refine ⟨set v, by rw [find?_field, hfinds.find?_eq, hv]; rfl, ?_⟩
    intro d hd
    exact hfin d (Option.not_isSome_iff_eq_none.mp (by simpa [field] using hd))

theorem lawful_operation : operationShape.Lawful where
  independent := by
    simp only [operationShape, List.pairwise_cons, List.forall_mem_cons, List.Pairwise.nil,
      List.not_mem_nil, false_implies, implies_true, and_true]
    exact independent_field (by decide) (fun _ _ => rfl) (fun _ _ => rfl) fun _ _ _ => rfl
  start := by simp [operationShape, field]
  isSet := by
    intro f hf w hw
    simp only [operationShape, List.mem_cons, List.not_mem_nil, or_false] at hf
    rcases hf with rfl | rfl <;> exact isSet_field hw fun _ _ => rfl

theorem lawful_node : nodeShape.Lawful where
  independent := by
    simp only [nodeShape, List.pairwise_cons, List.forall_mem_cons, List.Pairwise.nil,
      List.not_mem_nil, false_implies, implies_true, and_true]
    refine ⟨⟨?_, ?_⟩, ?_⟩ <;>
      exact independent_field (by decide) (fun _ _ => rfl) (fun _ _ => rfl) fun _ _ _ => rfl
  start := by simp [nodeShape, field]
  isSet := by
    intro f hf w hw
    simp only [nodeShape, List.mem_cons, List.not_mem_nil, or_false] at hf
    rcases hf with rfl | rfl | rfl <;> exact isSet_field hw fun _ _ => rfl

theorem lawful_lineInfo : lineInfoShape.Lawful where
  independent := List.pairwise_singleton _ _
  start := by simp [lineInfoShape, field]
  isSet := by
    intro f hf w hw
    simp only [lineInfoShape, List.mem_cons, List.not_mem_nil, or_false] at hf
    subst hf
    exact isSet_field hw fun _ _ => rfl

/-! ## 4. The slots are those of the readers -/

theorem fits_instruction : Fits instructionSlots operationShape where
  lawful := lawful_operation
  fields := by
    refine .cons ?_ (.cons ?_ .nil)
    · exact fits_field rfl Reader.finds_text (Json.kept_plain _) nofun
    · refine fits_field rfl Reader.finds_text.nullable (Json.kept_plain _) ?_
      rintro t ⟨⟩
      refine ⟨none, rfl, ?_⟩
      rintro ⟨opcode, _⟩ rfl
      rfl

theorem kept_instruction : Kept (RecordChange instructionSlots) instruction.find? := by
  intro t t' ht i hi
  rw [find?_instruction] at hi ⊢
  exact fits_instruction.find?_of_change.bind _ ht i hi

theorem fits_node : Fits nodeSlots nodeShape where
  lawful := lawful_node
  fields := by
    refine .cons ?_ (.cons ?_ (.cons ?_ .nil))
    · exact fits_field rfl Reader.finds_text (Json.kept_plain _) nofun
    · refine fits_field rfl Reader.finds_text.list (Json.kept_plain _) ?_
      rintro t ⟨⟩
      refine ⟨[], rfl, ?_⟩
      rintro ⟨name, _, instructions⟩ rfl
      rfl
    · refine fits_field rfl finds_instruction.list kept_instruction.elements ?_
      rintro t ⟨⟩
      refine ⟨[], rfl, ?_⟩
      rintro ⟨name, tags, _⟩ rfl
      rfl

theorem fits_lineInfo : Fits lineInfoSlots lineInfoShape where
  lawful := lawful_lineInfo
  fields := by
    refine .cons ?_ .nil
    exact fits_field rfl Reader.finds_text (Json.kept_plain _) nofun

end Wire

namespace Document

open Wire (fits_field independent_field isSet_field)

theorem lawful_shape : shape.Lawful where
  independent := by
    simp only [shape, List.pairwise_cons, List.forall_mem_cons, List.Pairwise.nil,
      List.not_mem_nil, false_implies, implies_true, and_true]
    refine ⟨⟨?_, ?_⟩, ?_⟩ <;>
      exact independent_field (by decide) (fun _ _ => rfl) (fun _ _ => rfl) fun _ _ _ => rfl
  start := by simp [shape, Wire.field]
  isSet := by
    intro f hf w hw
    simp only [shape, List.mem_cons, List.not_mem_nil, or_false] at hf
    rcases hf with rfl | rfl | rfl <;> exact isSet_field hw fun _ _ => rfl

theorem fits_shape : Fits slots shape where
  lawful := lawful_shape
  fields := by
    refine .cons ?_ (.cons ?_ (.cons ?_ .nil))
    · refine fits_field rfl Wire.finds_node.list Wire.fits_node.find?_of_change.elements ?_
      rintro t ⟨⟩
      refine ⟨[], rfl, ?_⟩
      rintro ⟨_, strings, lineInfo⟩ rfl
      rfl
    · refine fits_field rfl Reader.finds_text.entries (Json.kept_plain _) ?_
      rintro t ⟨⟩
      refine ⟨[], rfl, ?_⟩
      rintro ⟨nodes, _, lineInfo⟩ rfl
      rfl
    · refine fits_field rfl Wire.finds_lineInfo.entries
        Wire.fits_lineInfo.find?_of_change.entries ?_
      rintro t ⟨⟩
      refine ⟨[], rfl, ?_⟩
      rintro ⟨nodes, strings, _⟩ rfl
      rfl

end Document

/-! ## 5. Programs -/

namespace Program

/-- A change at any record of a document: at the document itself, at a node, at an instruction or at
a declaration. -/
def LayoutChange : Tree → Tree → Prop := RecordChange Document.slots

/-- After any number of changes a tree holds the same document. -/
theorem find?_of_changes {t t' : Tree} (h : Relation.ReflTransGen LayoutChange t t')
    {d : Document} (hd : Document.shape.find? t = some d) : Document.shape.find? t' = some d := by
  induction h with
  | refl => exact hd
  | tail _ hstep ih => exact Document.fits_shape.find?_of_change hstep d ih

/-- **The layout of a document does not matter.**  A text that is loaded is the document of a tree,
and whatever tree it is: after any number of changes, written in any way, it is loaded as the same
program. -/
theorem load_of_changes {text : String} {p : Program} (h : load text = .ok p) :
    (∃ t, Spelled t text) ∧
      ∀ t t' text', Spelled t text → Relation.ReflTransGen LayoutChange t t' → Spelled t' text' →
        load text' = .ok p := by
  obtain ⟨d, hd, hp⟩ := load_eq_ok_iff.mp h
  constructor
  · have hspelling := Reader.spelling_record (Document.closed_fields Reader.closed_spelling)
    exact hspelling.exists_spelled hd
  · intro t t' text' ht hchanges ht'
    have hfound := (Document.finds_reader.decode_eq_ok_iff ht).mp hd
    have hfound' := find?_of_changes hchanges hfound
    exact load_eq_ok_iff.mpr ⟨d, (Document.finds_reader.decode_eq_ok_iff ht').mpr hfound', hp⟩

namespace Example

/-- A document with one node of one instruction, in full. -/
def quay : String :=
  "\x7b\"nodes\":[\x7b\"name\":\"Quay\",\"instructions\":[" ++
    "\x7b\"opcode\":\"Stop\",\"operand\":null\x7d]\x7d]\x7d"

/-- The same document with as few names as there can be, and a note. -/
def quayInShort : String :=
  " \x7b\"note\":[false],\"nodes\":[[\"Quay\",[],[[\"Stop\"]]]]\x7d\n"

/-- A member with this name. -/
def named (name : String) (t : Tree) : Json.Body × Tree := (.ofText name, t)

def text (s : String) : Tree := .text (.ofText s)

/-- The document with this node. -/
def withNode (n : Tree) : Tree := .object [named "nodes" (.list [n])]

/-- The node with this instruction. -/
def withInstruction (i : Tree) : Tree :=
  .object [named "name" (text "Quay"), named "instructions" (.list [i])]

theorem change_node {n n' : Tree} (h : RecordChange Wire.nodeSlots n n') :
    LayoutChange (withNode n) (withNode n') :=
  .inMember (l := []) List.mem_cons_self (Json.text?_ofText _) (.mk (l := []) h)

theorem change_instruction {i i' : Tree} (h : RecordChange Wire.instructionSlots i i') :
    LayoutChange (withNode (withInstruction i)) (withNode (withInstruction i')) := by
  have hlist : ListChange (RecordChange Wire.instructionSlots) (.list [i]) (.list [i']) :=
    .mk (l := []) h
  have hslot : Wire.nodeSlots[2]? = some ⟨"instructions", some (.list []), ListChange _⟩ := rfl
  exact change_node (.inMember (l := [named "name" (text "Quay")]) (List.mem_of_getElem? hslot)
    (Json.text?_ofText _) hlist)

def inFull : Tree :=
  withNode (withInstruction (.object [named "opcode" (text "Stop"), named "operand" .null]))

def inShort : Tree :=
  .object [named "note" (.list [.word ⟨_, .falseWord⟩]),
    named "nodes" (.list [.list [text "Quay", .list [], .list [.list [text "Stop"]]]])]

theorem changes_inShort : Relation.ReflTransGen LayoutChange inFull inShort := by
  have hleaveOut : LayoutChange inFull
      (withNode (withInstruction (.object [named "opcode" (text "Stop")]))) := by
    have hslot : Wire.instructionSlots[1]? = some (.plain "operand" (some Tree.null)) := rfl
    exact change_instruction (.leaveOut (l := [named "opcode" (text "Stop")])
      (List.mem_of_getElem? hslot) (Json.text?_ofText _) rfl)
  have hplace : LayoutChange (withNode (withInstruction (.object [named "opcode" (text "Stop")])))
      (withNode (withInstruction (.list [text "Stop"]))) :=
    change_instruction (.place (.member (l := []) (Json.text?_ofText _) .nil))
  have hplace' : LayoutChange (withNode (withInstruction (.list [text "Stop"])))
      (withNode (.list [text "Quay", .list [], .list [.list [text "Stop"]]])) := by
    refine change_node (.place (.member (l := []) (Json.text?_ofText _) (.default ?_ rfl
      (.member (l := []) (Json.text?_ofText _) .nil))))
    simp [named, Slot.plain]
  have hinsert : LayoutChange
      (withNode (.list [text "Quay", .list [], .list [.list [text "Stop"]]])) inShort := by
    refine .insert (l := []) (Json.text?_ofText "note") ?_
    simp [Document.slots, Slot.plain]
  exact .head hleaveOut (.head hplace (.head hplace' (.single hinsert)))

theorem spelled_quay : Spelled inFull quay := by
  have hquay : quay = String.ofList inFull.compact := by decide +kernel
  rw [hquay]
  exact Json.spelled_compact inFull

theorem spelled_quayInShort : Spelled inShort quayInShort := by
  have hgap : ∀ c, Json.isSpace c = true → Json.Gap [c] := by simp [Json.Gap]
  refine ⟨[' '], inShort.compact, ['\n'], ?_, hgap _ rfl, Json.spells_compact _, hgap _ rfl⟩
  decide +kernel

theorem load_of_changes_quay : ∃ p, load quay = .ok p ∧ load quayInShort = .ok p := by
  have hdecode : Document.reader.decode quay = .ok ⟨[⟨"Quay", [], [.other "Stop"]⟩], [], []⟩ := by
    decide +kernel
  have hload := load_eq_ok_iff.mpr ⟨_, hdecode, rfl⟩
  exact ⟨_, hload, (load_of_changes hload).2 _ _ _ spelled_quay changes_inShort spelled_quayInShort⟩

end Example

end Program

end DialogueExport
