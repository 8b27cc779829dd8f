import DialogueExport.Program.Wire

/-!
# Loading a program

A document lists nodes and entries as they are written; a program finds them by name.

* Two nodes may not share a name: `Program.ofDocument` refuses the first node in the order of the
  document whose name has come before (`firstRepeat`).  It looks only after the whole text was
  read, so a fault of the text wins over it.
* An entry may come again: the last value counts, in the first place.
-/

namespace DialogueExport

open Json (Reader Shape)

/-! ## 1. Documents -/

/-- What a program document holds (`ProgramDocument`), in the order of its text and with all
repeats. -/
structure Document where
  nodes : List Node
  strings : List (String × String)
  lineInfo : List (String × LineInfo)
deriving DecidableEq

namespace Document

/-- The fields of a document that were read. -/
structure Draft where
  nodes : Option (List Node)
  strings : Option (List (String × String))
  lineInfo : Option (List (String × LineInfo))

def shape : Shape Draft Document where
  name := "ProgramDocument"
  fields := [
    Wire.field "nodes" (·.nodes) (fun v d => { d with nodes := some v })
      (Reader.list Wire.node),
    Wire.field "strings" (·.strings) (fun v d => { d with strings := some v })
      (Reader.entries Reader.text),
    Wire.field "line_info" (·.lineInfo) (fun v d => { d with lineInfo := some v })
      (Reader.entries Wire.lineInfo)]
  start := ⟨none, none, none⟩
  finish d := .ok ⟨d.nodes.getD [], d.strings.getD [], d.lineInfo.getD []⟩

def reader : Reader Document := Reader.record shape

/-- The document without white space, with all three fields. -/
def print (d : Document) : List Char :=
  Json.printObject [
    ("nodes", Json.printList (d.nodes.map Wire.printNode)),
    ("strings", Json.printObject (d.strings.map fun e => (e.1, Json.printString e.2))),
    ("line_info", Json.printObject (d.lineInfo.map fun e => (e.1, Wire.printLineInfo e.2)))]

end Document

/-! ## 2. The first name that comes again -/

/-- The first element that equals an earlier one or one of those already seen. -/
def firstRepeat {α : Type} [DecidableEq α] (seen : List α) : List α → Option α
  | [] => none
  | a :: l => if a ∈ seen then some a else firstRepeat (a :: seen) l

theorem firstRepeat_eq_none_iff {α : Type} [DecidableEq α] : ∀ {seen l : List α},
    firstRepeat seen l = none ↔ l.Nodup ∧ ∀ a ∈ l, a ∉ seen
  | seen, [] => by simp [firstRepeat]
  | seen, a :: l => by
    have ih := @firstRepeat_eq_none_iff α _ (a :: seen) l
    by_cases h : a ∈ seen
    · simp [firstRepeat, h]
    · simp only [firstRepeat, h, if_false, ih, List.nodup_cons, List.mem_cons, not_or,
        forall_eq_or_imp, not_false_eq_true, true_and]
      constructor
      · rintro ⟨hl, hs⟩
        exact ⟨⟨fun ha => (hs a ha).1 rfl, hl⟩, fun b hb => (hs b hb).2⟩
      · rintro ⟨⟨ha, hl⟩, hs⟩
        exact ⟨hl, fun b hb => ⟨fun e => ha (e ▸ hb), hs b hb⟩⟩

theorem firstRepeat_nil_eq_none_iff {α : Type} [DecidableEq α] {l : List α} :
    firstRepeat [] l = none ↔ l.Nodup := by
  simp [firstRepeat_eq_none_iff]

/-- An element is the first to come again: what stands before it has no repeats and holds it. -/
def IsFirstRepeat {α : Type} (l : List α) (a : α) : Prop :=
  ∃ before after, l = before ++ a :: after ∧ before.Nodup ∧ a ∈ before

theorem firstRepeat_append {α : Type} [DecidableEq α] : ∀ {before seen : List α},
    firstRepeat seen before = none → ∀ l, firstRepeat seen (before ++ l) =
      firstRepeat (before.reverse ++ seen) l
  | [], _, _, _ => rfl
  | b :: before, seen, h, l => by
    have hb : b ∉ seen := fun hb => by simp [firstRepeat, hb] at h
    rw [firstRepeat, if_neg hb] at h
    rw [List.cons_append, firstRepeat, if_neg hb, firstRepeat_append h, List.reverse_cons,
      List.append_assoc, List.singleton_append]

theorem firstRepeat_seen_eq_some_iff {α : Type} [DecidableEq α] {seen l : List α} {a : α} :
    firstRepeat seen l = some a ↔
      ∃ before after, l = before ++ a :: after ∧ firstRepeat seen before = none ∧
        (a ∈ before ∨ a ∈ seen) := by
  constructor
  · intro h
    induction l generalizing seen with
    | nil => cases h
    | cons b l ih =>
      by_cases hb : b ∈ seen
      · simp only [firstRepeat, hb, if_true, Option.some.injEq] at h
        exact ⟨[], l, by rw [h, List.nil_append], rfl, Or.inr (h ▸ hb)⟩
      · rw [firstRepeat, if_neg hb] at h
        obtain ⟨before, after, rfl, hnone, ha⟩ := ih h
        refine ⟨b :: before, after, rfl, by rw [firstRepeat, if_neg hb, hnone], ?_⟩
        simpa [or_comm, or_assoc, or_left_comm] using ha
  · rintro ⟨before, after, rfl, hnone, ha⟩
    have hseen : a ∈ before.reverse ++ seen := by simpa using ha
    rw [firstRepeat_append hnone, firstRepeat, if_pos hseen]

/-- The search finds the first element that comes again. -/
theorem firstRepeat_eq_some_iff {α : Type} [DecidableEq α] {l : List α} {a : α} :
    firstRepeat [] l = some a ↔ IsFirstRepeat l a := by
  simp [firstRepeat_seen_eq_some_iff, firstRepeat_nil_eq_none_iff, IsFirstRepeat]

instance {α : Type} [DecidableEq α] (l : List α) (a : α) : Decidable (IsFirstRepeat l a) :=
  decidable_of_iff _ firstRepeat_eq_some_iff

/-! ## 3. Programs -/

/-- Why a text is no program (`ProgramError`). -/
inductive LoadError where
  | malformed (error : Json.Error)
  | repeatedNode (name : String)
deriving DecidableEq

def LoadError.message : LoadError → String
  | malformed error => "invalid program JSON: " ++ error.message
  | repeatedNode name => "node " ++ name ++ " is declared more than once"

namespace Program

/-- Finds the nodes and the entries of a document by their names (`build_program`). -/
def ofDocument (d : Document) : Except LoadError Program :=
  match firstRepeat [] (d.nodes.map Node.name) with
  | some name => .error (.repeatedNode name)
  | none =>
    .ok ⟨Table.ofEntries (d.nodes.map fun n => (n.name, n)), Table.ofEntries d.strings,
      Table.ofEntries d.lineInfo⟩

/-- The program that a text describes (`parse_program_json`). -/
def load (text : String) : Except LoadError Program :=
  match Document.reader.decode text with
  | .error e => .error (.malformed e)
  | .ok d => ofDocument d

/-- Names without repeats give the nodes in the order of the document. -/
theorem nodes_ofDocument {d : Document} {p : Program} (h : ofDocument d = .ok p) :
    p.nodes.entries = d.nodes.map fun n => (n.name, n) := by
  unfold ofDocument at h
  split at h
  · cases h
  · next hn =>
    cases h
    refine Table.entries_ofEntries_of_nodup _ ?_
    rw [List.map_map]
    exact (firstRepeat_eq_none_iff.1 hn).1

end Program

end DialogueExport
