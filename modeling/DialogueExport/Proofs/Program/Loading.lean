import Mathlib.Data.List.Basic
import Mathlib.Data.List.Induction
import Mathlib.Data.List.Nodup
import DialogueExport.Proofs.Program.Nodes

/-!
# What loading makes of a document

A document is a list of nodes and two lists of entries, with all repeats; a program finds them by
name.  A text that is no document is refused for that reason alone, whatever was read of it.  In a
document the first name of a node that has come before is reported, and if there is none, then all
nodes are kept in their order.  Entries may come again: the last value counts (`IsLastValue`), in
the place of the first (`keys_ofEntries`).

Main statement: `load_spec`.
-/

namespace DialogueExport

/-! ## 1. Tables of entries with repeats -/

/-- The last value that a list of pairs gives a key. -/
def IsLastValue {κ α : Type} (l : List (κ × α)) (k : κ) (a : α) : Prop :=
  ∃ before after, l = before ++ (k, a) :: after ∧ k ∉ after.map Prod.fst

/-- The elements of a list without repeats, in the order in which they first come. -/
structure InFirstOrder {κ : Type} [DecidableEq κ] (l keys : List κ) : Prop where
  mem_iff : ∀ k, k ∈ keys ↔ k ∈ l
  ordered : keys.Pairwise fun i j => l.idxOf i < l.idxOf j

namespace Table

variable {κ α : Type} [DecidableEq κ]

theorem get?_ofEntries_eq_some_iff {l : List (κ × α)} {k : κ} {a : α} :
    (ofEntries l).get? k = some a ↔ IsLastValue l k a := by
  have hkey : ∀ m : List (κ × α), (∀ e ∈ m, (k != e.1) = true) ↔ k ∉ m.map Prod.fst := by
    intro m
    simp only [bne_iff_ne, List.mem_map, not_exists, not_and]
    exact ⟨fun h e he hek => h e he hek.symm, fun h e he hek => h e he hek.symm⟩
  rw [get?_ofEntries, List.lookup_eq_some_iff]
  simp only [hkey]
  constructor
  · rintro ⟨after, before, hl, hafter⟩
    refine ⟨before.reverse, after.reverse, ?_, ?_⟩
    · rw [← List.reverse_reverse l, hl, List.reverse_append, List.reverse_cons, List.append_assoc,
        List.singleton_append]
    · rwa [List.map_reverse, List.mem_reverse]
  · rintro ⟨before, after, rfl, hafter⟩
    refine ⟨after.reverse, before.reverse, ?_, ?_⟩
    · rw [List.reverse_append, List.reverse_cons, List.append_assoc, List.singleton_append]
    · rwa [List.map_reverse, List.mem_reverse]

theorem ofEntries_concat (l : List (κ × α)) (e : κ × α) :
    ofEntries (l ++ [e]) = (ofEntries l).insert e.1 e.2 := by
  rw [ofEntries, insertAll, List.foldl_append]
  rfl

/-- A table keeps every key of its entries, in the place where it first came. -/
theorem keys_ofEntries (l : List (κ × α)) :
    InFirstOrder (l.map Prod.fst) (ofEntries l).keys := by
  induction l using List.reverseRecOn with
  | nil => exact ⟨fun k => Iff.rfl, .nil⟩
  | append_singleton l e ih =>
    rw [ofEntries_concat, List.map_append, List.map_singleton]
    have hold : ∀ k ∈ (ofEntries l).keys, (l.map Prod.fst ++ [e.1]).idxOf k =
        (l.map Prod.fst).idxOf k :=
      fun k hk => List.idxOf_append_of_mem ((ih.mem_iff k).mp hk)
    have hordered : (ofEntries l).keys.Pairwise fun i j =>
        (l.map Prod.fst ++ [e.1]).idxOf i < (l.map Prod.fst ++ [e.1]).idxOf j := by
      refine ih.ordered.imp_of_mem ?_
      intro i j hi hj hij
      rwa [hold i hi, hold j hj]
    constructor
    · intro k
      rw [mem_keys_insert, ih.mem_iff, List.mem_append, List.mem_singleton, or_comm]
    · rw [keys_insert]
      split
      · exact hordered
      · next hnew =>
        refine List.pairwise_append.mpr ⟨hordered, List.pairwise_singleton _ _, ?_⟩
        intro i hi j hj
        rw [List.mem_singleton] at hj
        subst hj
        -- The new key comes behind all entries so far.
        have hlast : (l.map Prod.fst ++ [e.1]).idxOf e.1 = (l.map Prod.fst).length := by
          rw [List.idxOf_append_of_notMem fun h => hnew ((ih.mem_iff _).mpr h)]
          simp
        rw [hold i hi, hlast]
        exact List.idxOf_lt_length_iff.mpr ((ih.mem_iff i).mp hi)

end Table

/-! ## 2. Documents -/

/-- Two nodes of the document have the same name. -/
def Document.Ambiguous (d : Document) : Prop :=
  ∃ (i j : Nat) (m n : Node), i < j ∧ d.nodes[i]? = some m ∧ d.nodes[j]? = some n ∧ m.name = n.name

theorem Document.ambiguous_iff {d : Document} :
    d.Ambiguous ↔ ¬ (d.nodes.map Node.name).Nodup := by
  rw [List.nodup_iff_getElem?_ne_getElem?]
  simp only [List.getElem?_map, List.length_map, not_forall, not_not]
  constructor
  · rintro ⟨i, j, m, n, hij, hm, hn, hname⟩
    obtain ⟨hj, -⟩ := List.getElem?_eq_some_iff.mp hn
    exact ⟨i, j, hij, hj, by rw [hm, hn, Option.map_some, Option.map_some, hname]⟩
  · rintro ⟨i, j, hij, hj, hname⟩
    have hn := List.getElem?_eq_getElem hj
    rw [hn] at hname
    obtain ⟨m, hm, hname⟩ := Option.map_eq_some_iff.mp hname
    exact ⟨i, j, m, _, hij, hm, hn, hname⟩

/-- The program holds what the document gives. -/
structure Program.Holds (p : Program) (d : Document) : Prop where
  nodes : p.nodes.entries = d.nodes.map fun n => (n.name, n)
  strings : ∀ k text, p.strings.get? k = some text ↔ IsLastValue d.strings k text
  lineInfo : ∀ k info, p.lineInfo.get? k = some info ↔ IsLastValue d.lineInfo k info
  order : InFirstOrder (d.strings.map Prod.fst) p.strings.keys

namespace Program

theorem load_of_error {text : String} {e : Json.Error}
    (h : Document.reader.decode text = .error e) : load text = .error (.malformed e) := by
  rw [load, h]

theorem load_of_ok {text : String} {d : Document} (h : Document.reader.decode text = .ok d) :
    load text = ofDocument d := by
  rw [load, h]

theorem ofDocument_eq_error_iff {d : Document} {name : String} :
    ofDocument d = .error (.repeatedNode name) ↔ IsFirstRepeat (d.nodes.map Node.name) name := by
  rw [← firstRepeat_eq_some_iff, ofDocument]
  split
  · next n hn => simp [hn]
  · next hn => simp [hn]

theorem exists_of_not_ambiguous {d : Document} (h : ¬ d.Ambiguous) :
    ∃ p, ofDocument d = .ok p ∧ p.Holds d := by
  rw [Document.ambiguous_iff, not_not] at h
  have hnone := firstRepeat_nil_eq_none_iff.mpr h
  rw [ofDocument, hnone]
  refine ⟨_, rfl, ?_, ?_, ?_, Table.keys_ofEntries d.strings⟩
  · refine Table.entries_ofEntries_of_nodup _ ?_
    rwa [List.map_map]
  · exact fun k text => Table.get?_ofEntries_eq_some_iff
  · exact fun k info => Table.get?_ofEntries_eq_some_iff

/-- **What loading makes of a text.**  A text that is no document is malformed, also if nodes that
were read before the fault share a name.  A document is refused exactly if two of its nodes share a
name, and the name that is reported is the first that has come before.  Otherwise all nodes are
there in the order of the document, each under its own name, and every key of the two tables has the
last value that the document gives it, the texts in the order in which their keys first come. -/
theorem load_spec (text : String) :
    (∀ e, Document.reader.decode text = .error e → load text = .error (.malformed e)) ∧
      ∀ d, Document.reader.decode text = .ok d →
        ((∃ name, load text = .error (.repeatedNode name)) ↔ d.Ambiguous) ∧
        (∀ name, load text = .error (.repeatedNode name) ↔
          IsFirstRepeat (d.nodes.map Node.name) name) ∧
        (¬ d.Ambiguous → ∃ p, load text = .ok p ∧ p.Holds d) := by
  refine ⟨fun e he => load_of_error he, ?_⟩
  intro d hd
  rw [load_of_ok hd]
  refine ⟨?_, fun name => ofDocument_eq_error_iff, exists_of_not_ambiguous⟩
  rw [Document.ambiguous_iff, ← firstRepeat_nil_eq_none_iff, ← ne_eq, Option.ne_none_iff_exists']
  exact exists_congr fun name => ofDocument_eq_error_iff.trans firstRepeat_eq_some_iff.symm

namespace Example

/-- Two nodes of one name, and then the text breaks off. -/
def broken : String := "\x7b\"nodes\": [[\"Quay\"], [\"Quay\"],"

/-- Two names come again; the second of them comes again first. -/
def twice : String := "\x7b\"nodes\": [[\"Quay\"], [\"Pier\"], [\"Pier\"], [\"Quay\"]]\x7d"

/-- One text is there twice. -/
def corrected : String :=
  "[[[\"Quay\"]], \x7b\"line:2\": \"Ahoi\", \"line:1\": \"Hi\", \"line:2\": \"Ahoy\"\x7d]"

theorem load_spec_quay :
    (∃ e, load broken = .error (.malformed e)) ∧
      load twice = .error (.repeatedNode "Pier") ∧
      ∃ p, load corrected = .ok p ∧
        p.Holds ⟨[⟨"Quay", [], []⟩],
          [("line:2", "Ahoi"), ("line:1", "Hi"), ("line:2", "Ahoy")], []⟩ := by
  have hbroken : (Document.reader.decode broken).toOption = none := by decide +kernel
  have htwice : Document.reader.decode twice = .ok ⟨[⟨"Quay", [], []⟩, ⟨"Pier", [], []⟩,
      ⟨"Pier", [], []⟩, ⟨"Quay", [], []⟩], [], []⟩ := by decide +kernel
  have hcorrected : Document.reader.decode corrected = .ok ⟨[⟨"Quay", [], []⟩],
      [("line:2", "Ahoi"), ("line:1", "Hi"), ("line:2", "Ahoy")], []⟩ := by decide +kernel
  obtain ⟨e, he⟩ := toOption_eq_none_iff.mp hbroken
  refine ⟨⟨e, (load_spec broken).1 e he⟩, ?_, ?_⟩
  · exact (((load_spec twice).2 _ htwice).2.1 "Pier").mpr (by decide)
  · refine ((load_spec corrected).2 _ hcorrected).2.2 ?_
    rw [Document.ambiguous_iff]
    decide

end Example

end Program

end DialogueExport
