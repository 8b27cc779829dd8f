import DialogueExport.Proofs.Program.Layout
import DialogueExport.Proofs.Program.RoundTrip

/-!
# Values survive their written form

An instruction that is written and read again need not be the same: what has no meaning is written
by its name, and the name may be one that has a meaning.  These are all exceptions
(`decode_print_iff`), and no reader produces one of them, for the name decides what is read
(`proper_of_decode`).  So whatever was read survives: `Survives` for instructions, and for nodes
because all instructions of a node that was read are proper (`proper_of_decode_node`).

What is lost on the way in is the operand of other opcodes.  Only three opcodes need one, and an
object is refused exactly if it names one of them and gives no operand
(`decode_instruction_eq_error_iff`).

Main statement: `survives_spec`.
-/

namespace DialogueExport

open Json (Body Fills Reader Shape Spelled Tree)

namespace Wire

/-! ## 1. Instructions -/

/-- An instruction comes back from its written form exactly if it is proper. -/
theorem decode_print_iff (i : Instruction) :
    instruction.decode (String.ofList (printInstruction i)) = .ok i ↔ i.Proper := by
  constructor
  · intro h
    obtain ⟨rest, hrun, -⟩ := Reader.decode_eq_ok_iff.mp h
    obtain ⟨op, hop, hi⟩ := Json.readChecked_eq_ok.mp hrun
    have htakes := (takes_operation (operationOf i)).run_append []
    rw [String.toList_ofList] at hop
    rw [List.append_nil] at htakes
    obtain ⟨rfl, -⟩ := Prod.mk.inj (Except.ok.inj (htakes.symm.trans hop))
    exact instructionOf_operationOf_iff.mp hi
  · exact fun h => (takes_instruction h).decode

/-- An opcode that has a meaning is never kept by its name. -/
theorem proper_of_instructionOf {op : Operation} {i : Instruction}
    (h : instructionOf op = .ok i) : i.Proper := by
  rintro opcode rfl
  unfold instructionOf at h
  split at h
  · obtain ⟨_, -, hx⟩ := map_eq_ok.mp h
    cases hx
  split at h
  · obtain ⟨_, -, hx⟩ := map_eq_ok.mp h
    cases hx
  split at h
  · obtain ⟨_, -, hx⟩ := map_eq_ok.mp h
    cases hx
  split at h
  · cases h
  · next hline hoption hcommand hshow =>
    cases h
    simp [hline, hoption, hcommand, hshow]

/-- What a reader of instructions reads is proper. -/
theorem proper_of_find? {t : Tree} {i : Instruction} (h : instruction.find? t = some i) :
    i.Proper := by
  rw [find?_instruction, Option.bind_eq_some_iff] at h
  obtain ⟨op, -, hi⟩ := h
  exact proper_of_instructionOf (toOption_eq_some_iff.mp hi)

theorem proper_of_decode {text : String} {i : Instruction} (h : instruction.decode text = .ok i) :
    i.Proper := by
  obtain ⟨rest, hrun, -⟩ := Reader.decode_eq_ok_iff.mp h
  obtain ⟨op, -, hi⟩ := Json.readChecked_eq_ok.mp hrun
  exact proper_of_instructionOf hi

/-! ## 2. Nodes, declarations and rows -/

theorem exists_of_mem_mapM {α β : Type} {f : α → Option β} : ∀ {l : List α} {bs : List β},
    l.mapM f = some bs → ∀ b ∈ bs, ∃ a ∈ l, f a = some b
  | [], bs, h, b, hb => by
    cases h
    cases hb
  | a :: l, bs, h, b, hb => by
    rw [List.mapM_cons, Option.bind_eq_bind, Option.bind_eq_some_iff] at h
    obtain ⟨c, hc, h⟩ := h
    rw [Option.bind_eq_bind, Option.bind_eq_some_iff] at h
    obtain ⟨cs, hcs, h⟩ := h
    cases h
    rcases List.mem_cons.mp hb with rfl | hb
    · exact ⟨a, List.mem_cons_self, hc⟩
    · obtain ⟨a', ha', hb⟩ := exists_of_mem_mapM hcs b hb
      exact ⟨a', List.mem_cons_of_mem a ha', hb⟩

/-- The instructions of a draft, if they were read, are proper. -/
def NodeDraft.Proper (d : NodeDraft) : Prop :=
  ∀ l, d.instructions = some l → ∀ i ∈ l, i.Proper

/-- What a field of a node writes leaves the draft proper. -/
theorem proper_of_writes : ∀ f ∈ nodeShape.fields, ∀ w, f.Writes w →
    ∀ d : NodeDraft, d.Proper → (w d).Proper := by
  intro f hf w hw d hd
  simp only [nodeShape, List.mem_cons, List.not_mem_nil, or_false] at hf
  rcases hf with rfl | rfl | rfl
  · obtain ⟨t, v, -, rfl⟩ := exists_of_writes hw
    exact hd
  · obtain ⟨t, v, -, rfl⟩ := exists_of_writes hw
    exact hd
  · obtain ⟨t, v, hv, rfl⟩ := exists_of_writes hw
    rintro l ⟨⟩ i hi
    rw [finds_instruction.list.find?_eq] at hv
    cases t with
    | word | text | object => cases hv
    | list ts =>
      obtain ⟨u, -, hu⟩ := exists_of_mem_mapM hv i hi
      exact proper_of_find? hu

theorem proper_of_decode_node {text : String} {n : Node} (h : node.decode text = .ok n) :
    ∀ i ∈ n.instructions, i.Proper := by
  obtain ⟨t, ht⟩ := (Reader.spelling_record (closed_node Reader.closed_spelling)).exists_spelled h
  have hfound := (finds_node.decode_eq_ok_iff ht).mp h
  have hstart : nodeShape.start.Proper := nofun
  obtain ⟨d, hd, hfin⟩ := Shape.exists_draft hstart proper_of_writes hfound
  obtain ⟨name, -, hfin⟩ := bind_eq_ok.mp hfin
  cases hfin
  intro i hi
  cases hl : d.instructions with
  | none => simp [hl] at hi
  | some l =>
    simp only [hl, Option.getD_some] at hi
    exact hd l hl i hi

open Json.Reader (takes_text) in
theorem takes_row (r : Row) : row.Takes (printRow r) r := by
  have hcode := (takes_text r.code).map fun v (d : RowDraft) => { d with code := some v }
  have htext := (takes_text r.text).map fun v (d : RowDraft) => { d with text := some v }
  have hcharacter := (takes_text r.character).map
    fun v (d : RowDraft) => { d with character := some v }
  have hcomment := (takes_text r.comment).map fun v (d : RowDraft) => { d with comment := some v }
  have hfills : Fills rowShape.fields rowShape.start
      [("LineCode", Json.printString r.code), ("LineText", Json.printString r.text),
        ("Character", Json.printString r.character), ("Comment", Json.printString r.comment)]
      ⟨some r.code, some r.text, some r.character, some r.comment⟩ :=
    .cons rfl rfl hcode (.cons rfl rfl htext (.cons rfl rfl hcharacter
      (.cons rfl rfl hcomment (.nil _))))
  exact Json.takes_record hfills rfl

/-- Whatever is read from a text is written as a text from which it is read again, and written again
in the same way. -/
def Survives {α : Type} (value : Reader α) (print : α → List Char) : Prop :=
  ∀ text a, value.decode text = .ok a →
    ∃ b, value.decode (String.ofList (print a)) = .ok b ∧ b = a ∧ print b = print a

theorem survives_of_takes {α : Type} {value : Reader α} {print : α → List Char}
    (h : ∀ text a, value.decode text = .ok a → value.Takes (print a) a) : Survives value print := by
  intro text a ha
  exact ⟨a, (h text a ha).decode, rfl, rfl⟩

/-! ## 3. Objects that are refused -/

/-- An operation is no instruction exactly if its opcode needs an operand and it has none. -/
theorem instructionOf_eq_error_iff {op : Operation} : (∃ why, instructionOf op = .error why) ↔
    op.opcode ∈ ["RunLine", "AddOption", "RunCommand"] ∧ op.operand = none := by
  have hneed : ∀ f : String → Instruction,
      (∃ why, (needOperand op).map f = .error why) ↔ op.operand = none := by
    intro f
    rw [needOperand]
    cases op.operand <;> simp [Except.map]
  unfold instructionOf
  split
  · next h => simp [hneed, h]
  split
  · next h => simp [hneed, h]
  split
  · next h => simp [hneed, h]
  split
  · next h => simp [h]
  · next hline hoption hcommand _ => simp [hline, hoption, hcommand]

/-- A field that is among the members was found there. -/
theorem get_of_fill {σ α β : Type} {shape : Shape σ α} (hshape : shape.Lawful) {name : String}
    {get : σ → Option β} {set : β → σ → σ} {value : Reader β} {find : Tree → Option β}
    (hf : field name get set value ∈ shape.fields) (hset : ∀ v d, get (set v d) = some v)
    (hfinds : value.Finds find) {ms : List (Body × Tree)} {e : σ}
    (he : Json.fill shape.fields shape.start ms = some e) :
    ∀ m ∈ ms, m.1.text? = some name → ∃ v, find m.2 = some v ∧ get e = some v := by
  intro m hm hkey
  obtain ⟨l, r, rfl⟩ := List.append_of_mem hm
  obtain ⟨d, -, hput⟩ := hshape.fill_middle_iff.mp he
  obtain ⟨-, w, hw, rfl⟩ := (hshape.put_known_iff hf hkey).mp hput
  rw [find?_field, Option.map_eq_some_iff] at hw
  obtain ⟨v, hv, rfl⟩ := hw
  exact ⟨v, (hfinds.find?_eq m.2).symm.trans hv, hset v d⟩

/-- A field that is not among the members is not there. -/
theorem get_of_fill_of_absent {σ α β : Type} {shape : Shape σ α} (hshape : shape.Lawful)
    {name : String} {get : σ → Option β} {set : β → σ → σ} {value : Reader β}
    (hf : field name get set value ∈ shape.fields) {ms : List (Body × Tree)} {e : σ}
    (he : Json.fill shape.fields shape.start ms = some e)
    (habsent : ∀ m ∈ ms, m.1.text? ≠ some name) : get e = none := by
  have hisSet := (hshape.isSet_of_fill hf habsent he).trans (hshape.start _ hf)
  simpa [field] using hisSet

theorem toOption_decode_instruction {t : Tree} {text : String} (htext : Spelled t text)
    {op : Operation} (hop : operationShape.find? t = some op) :
    (instruction.decode text).toOption = (instructionOf op).toOption := by
  refine Option.ext fun i => ?_
  rw [toOption_eq_some_iff, finds_instruction.decode_eq_ok_iff htext, find?_instruction, hop,
    Option.bind_some]

theorem finish_operation_eq_ok {d : OperationDraft} {op : Operation}
    (h : operationShape.finish d = .ok op) :
    d.opcode = some op.opcode ∧ op.operand = d.operand.getD none := by
  obtain ⟨opcode, operand⟩ := d
  cases opcode with
  | none => cases h
  | some opcode =>
    cases h
    exact ⟨rfl, rfl⟩

/-- The opcode of an operation is the value of its member. -/
theorem opcode_mem_iff {ms : List (Body × Tree)} {op : Operation}
    (h : operationShape.find? (.object ms) = some op) (l : List String) :
    op.opcode ∈ l ↔
      ∃ m ∈ ms, m.1.text? = some "opcode" ∧ ∃ opcode ∈ l, m.2.text? = some opcode := by
  obtain ⟨d, hd, hfin⟩ := Json.Fits.find?_object_iff.mp h
  have hopcode := (finish_operation_eq_ok hfin).1
  have hfield : field "opcode" OperationDraft.opcode (fun v d => { d with opcode := some v })
      Reader.text ∈ operationShape.fields := List.mem_cons_self
  have hvalue := get_of_fill lawful_operation hfield (fun _ _ => rfl) Reader.finds_text hd
  rw [hopcode] at hvalue
  constructor
  · intro hmem
    by_contra hnone
    have habsent : ∀ m ∈ ms, m.1.text? ≠ some "opcode" := by
      intro m hm hkey
      obtain ⟨v, hv, hget⟩ := hvalue m hm hkey
      cases hget
      exact hnone ⟨m, hm, hkey, op.opcode, hmem, hv⟩
    have hget := get_of_fill_of_absent lawful_operation hfield hd habsent
    rw [hopcode] at hget
    cases hget
  · rintro ⟨m, hm, hkey, opcode, hmem, hopcode'⟩
    obtain ⟨v, hv, hget⟩ := hvalue m hm hkey
    cases hget
    rw [hv] at hopcode'
    cases hopcode'
    exact hmem

/-- An operation lacks its operand if the member is not there or null. -/
theorem operand_eq_none_iff {ms : List (Body × Tree)} {op : Operation}
    (h : operationShape.find? (.object ms) = some op) :
    op.operand = none ↔ ∀ m ∈ ms, m.1.text? = some "operand" → m.2 = Tree.null := by
  obtain ⟨d, hd, hfin⟩ := Json.Fits.find?_object_iff.mp h
  have hfield : field "operand" OperationDraft.operand (fun v d => { d with operand := some v })
      (Reader.nullable Reader.text) ∈ operationShape.fields :=
    List.mem_cons_of_mem _ List.mem_cons_self
  have hvalue := get_of_fill lawful_operation hfield (fun _ _ => rfl) Reader.finds_text.nullable hd
  rw [(finish_operation_eq_ok hfin).2]
  constructor
  · intro hnone m hm hkey
    obtain ⟨v, hv, hget⟩ := hvalue m hm hkey
    rw [hget, Option.getD_some] at hnone
    rw [hnone] at hv
    exact Json.nullable?_eq_some_none_iff.mp hv
  · intro hnull
    by_cases habsent : ∀ m ∈ ms, m.1.text? ≠ some "operand"
    · rw [get_of_fill_of_absent lawful_operation hfield hd habsent, Option.getD_none]
    · push Not at habsent
      obtain ⟨m, hm, hkey⟩ := habsent
      obtain ⟨v, hv, hget⟩ := hvalue m hm hkey
      rw [Json.nullable?_eq_some_none_iff.mpr (hnull m hm hkey)] at hv
      rw [hget, ← hv, Option.getD_some]

/-- An object that is an operation otherwise is refused as an instruction exactly if its opcode
needs an operand and the operand is not there or null. -/
theorem decode_instruction_eq_error_iff {ms : List (Body × Tree)} {text : String}
    (htext : Spelled (.object ms) text)
    (hop : ∃ op, (Reader.record operationShape).decode text = .ok op) :
    (∃ e, instruction.decode text = .error e) ↔
      (∃ m ∈ ms, m.1.text? = some "opcode" ∧
        ∃ opcode ∈ ["RunLine", "AddOption", "RunCommand"], m.2.text? = some opcode) ∧
      ∀ m ∈ ms, m.1.text? = some "operand" → m.2 = Tree.null := by
  obtain ⟨op, hop⟩ := hop
  have hfinds := Reader.finds_record (closed_operation Reader.closed_finds)
  have hfound := (hfinds.decode_eq_ok_iff htext).mp hop
  rw [← toOption_eq_none_iff, toOption_decode_instruction htext hfound, toOption_eq_none_iff,
    instructionOf_eq_error_iff, ← opcode_mem_iff hfound, operand_eq_none_iff hfound]

/-- **Values survive their written form.**  An instruction comes back exactly if it is proper, and
every instruction that is read is; so instructions, nodes, declarations and rows that were read from
any text survive.  An object that is an operation otherwise is refused exactly if its opcode needs
an operand and there is none. -/
theorem survives_spec :
    (∀ i, instruction.decode (String.ofList (printInstruction i)) = .ok i ↔ i.Proper) ∧
      (∀ text i, instruction.decode text = .ok i → i.Proper) ∧
      Survives instruction printInstruction ∧ Survives node printNode ∧
      Survives lineInfo printLineInfo ∧ Survives row printRow ∧
      ∀ ms text, Spelled (.object ms) text →
        (∃ op, (Reader.record operationShape).decode text = .ok op) →
          ((∃ e, instruction.decode text = .error e) ↔
            (∃ m ∈ ms, m.1.text? = some "opcode" ∧
              ∃ opcode ∈ ["RunLine", "AddOption", "RunCommand"], m.2.text? = some opcode) ∧
            ∀ m ∈ ms, m.1.text? = some "operand" → m.2 = Tree.null) := by
  refine ⟨decode_print_iff, fun _ _ => proper_of_decode, ?_, ?_, ?_, ?_, ?_⟩
  · exact survives_of_takes fun _ _ hi => takes_instruction (proper_of_decode hi)
  · exact survives_of_takes fun _ _ hn => takes_node (proper_of_decode_node hn)
  · exact survives_of_takes fun _ l _ => takes_lineInfo l
  · exact survives_of_takes fun _ r _ => takes_row r
  · exact fun _ _ => decode_instruction_eq_error_iff

namespace Example

open Program.Example (named text)

/-- An instruction that loses its operand. -/
def jump : String := "\x7b\"operand\": \"Pier\", \"opcode\": \"JumpTo\"\x7d"

/-- An option without a line. -/
def option : String := "\x7b\"opcode\":\"AddOption\",\"operand\":null\x7d"

theorem survives_spec_jump :
    (∃ i, instruction.decode (String.ofList (printInstruction (.other "JumpTo"))) = .ok i ∧
      i = .other "JumpTo" ∧ printInstruction i = printInstruction (.other "JumpTo")) ∧
      ∃ e, instruction.decode option = .error e := by
  obtain ⟨-, -, hinstruction, -, -, -, hrefused⟩ := survives_spec
  constructor
  · have hjump : instruction.decode jump = .ok (.other "JumpTo") := by decide +kernel
    exact hinstruction jump (.other "JumpTo") hjump
  · let ms := [named "opcode" (text "AddOption"), named "operand" Tree.null]
    have htext : Spelled (.object ms) option := by
      have hoption : option = String.ofList (Tree.object ms).compact := by decide +kernel
      rw [hoption]
      exact Json.spelled_compact (.object ms)
    have hop : (Reader.record operationShape).decode option = .ok ⟨"AddOption", none⟩ := by
      decide +kernel
    refine (hrefused ms option htext ⟨_, hop⟩).mpr ⟨?_, ?_⟩
    · exact ⟨_, List.mem_cons_self, Json.text?_ofText _, "AddOption", by decide,
        Json.text?_ofText _⟩
    · simp [ms, named]

end Example

end Wire

end DialogueExport
