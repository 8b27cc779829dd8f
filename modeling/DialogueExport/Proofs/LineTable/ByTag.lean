import DialogueExport.Proofs.LineTable.Rows
import Mathlib.Data.Finset.Basic
import Mathlib.Data.List.Nodup

/-!
# Tables by tag

A tag takes lines out of the table and does nothing else.  Whether a line is exported is decided at
two places, where it was delivered and where it was declared, but for each line only one of them has
a say: `home?` is the node that decides.  A line without a tag is exported exactly if its home is
known, and with a tag exactly if the home passes (`exportedText_eq`).  So the rows under a tag are
the rows without one, filtered by their homes (`rows_table_eq_filter`), in the same order as the
order is that of the codes.

If every node carries exactly one tag of a family, then so does the home of every row, and the rows
are shared out among the tags.

Main statement: `tables_by_tag`.
-/

namespace DialogueExport

namespace LineTable

variable {p : Program} {file : FilePath} {ledger : Ledger} {sel : Selection}

/-! ## 1. The node that decides -/

/-- The node that decides whether a line is exported: the one in which it was declared if the string
table knows the line, and else the one in which it was delivered. -/
def home? (p : Program) (ledger : Ledger) (code : String) : Option Node :=
  if code ∈ p.strings.keys then p.owner? code
  else (ledger.observations.get? code).bind fun o => p.nodes.get? o.node

/-- The home of a line is a node of the program. -/
theorem mem_nodes_of_home? {code : String} {n : Node} (h : home? p ledger code = some n) :
    n ∈ p.nodes.values := by
  have hname : ∃ name, p.nodes.get? name = some n := by
    unfold home? at h
    split at h
    · obtain ⟨info, -, hn⟩ := Option.bind_eq_some_iff.mp h
      exact ⟨info.node, hn⟩
    · obtain ⟨o, -, hn⟩ := Option.bind_eq_some_iff.mp h
      exact ⟨o.node, hn⟩
  obtain ⟨name, hn⟩ := hname
  exact List.mem_map.mpr ⟨(name, n), Table.mem_entries_iff.mpr hn, rfl⟩

/-- With a tag a line has the text that it has without, or none. -/
theorem exportedText_eq (p : Program) (ledger : Ledger) (sel : Selection) (code : String) :
    exportedText p ledger sel code =
      if (home? p ledger code).any sel.admitsNode then exportedText p ledger Selection.all code
      else none := by
  unfold exportedText home?
  cases hs : p.strings.get? code with
  | some text =>
    have hk : code ∈ p.strings.keys := Table.mem_keys_iff.mpr ⟨text, hs⟩
    rw [if_pos hk]
    cases ho : p.owner? code with
    | none => simp [Selection.admitsOwner, ho]
    | some n => simp [Selection.admitsOwner, ho]
  | none =>
    rw [if_neg (Table.get?_eq_none_iff.mp hs)]
    cases ledger.observations.get? code with
    | none => simp
    | some o =>
      cases hn : p.nodes.get? o.node with
      | none => simp [Selection.admitsName, hn]
      | some n => simp [Selection.admitsName, hn]

/-- A line that is exported without a tag has a home. -/
theorem exists_home?_of_exportedText {code text : String}
    (h : exportedText p ledger Selection.all code = some text) :
    ∃ n, home? p ledger code = some n := by
  rw [exportedText_eq] at h
  split at h
  · next hany =>
    obtain ⟨n, hn, -⟩ := Option.any_eq_true _ _ |>.mp hany
    exact ⟨n, hn⟩
  · cases h

/-! ## 2. Rows and entries under a tag -/

/-- A row under a tag is a row without one whose home passes. -/
theorem mem_rows_iff_home {r : Row} :
    r ∈ (table p ledger sel).rows ↔
      r ∈ (table p ledger Selection.all).rows ∧
        ∃ n, home? p ledger r.code = some n ∧ sel.Passes n := by
  have hany : (home? p ledger r.code).any sel.admitsNode = true ↔
      ∃ n, home? p ledger r.code = some n ∧ sel.Passes n := by
    simp only [Option.any_eq_true, Selection.admitsNode_iff]
  rw [mem_rows_table_iff, mem_rows_table_iff, ← hany, exportedText_eq]
  constructor
  · rintro ⟨text, ht, hr⟩
    split at ht
    · next h => exact ⟨⟨text, ht, hr⟩, h⟩
    · cases ht
  · rintro ⟨⟨text, ht, hr⟩, h⟩
    exact ⟨text, by rw [if_pos h, ht], hr⟩

theorem nodup_rows_table : (table p ledger sel).rows.Nodup := nodup_codes_table.of_map Row.code

/-- Two rows in the order of their codes stand in that order only. -/
theorem rows_table_eq_filter :
    (table p ledger sel).rows = (table p ledger Selection.all).rows.filter fun r =>
      (home? p ledger r.code).any sel.admitsNode := by
  have hperm : (table p ledger sel).rows.Perm ((table p ledger Selection.all).rows.filter fun r =>
      (home? p ledger r.code).any sel.admitsNode) := by
    refine (List.perm_ext_iff_of_nodup nodup_rows_table (nodup_rows_table.filter _)).mpr fun r => ?_
    rw [mem_rows_iff_home, List.mem_filter, Option.any_eq_true]
    simp only [Selection.admitsNode_iff]
  refine hperm.eq_of_pairwise (fun a b _ _ hab hba => ?_) rows_table_pairwise
    (rows_table_pairwise.filter _)
  exact absurd (String.lt_trans hab hba) (String.lt_irrefl a.code)

theorem untagged_table :
    (table p ledger sel).untagged =
      Untagged.select (p.strings.entries.filter fun e => sel.admitsOwner p e.1) := by
  rw [table, draft, selected_foldl_read, List.nil_append]

/-- What a tag selects is selected without a tag. -/
theorem admitsOwner_all_of_admitsOwner {code : String} (h : sel.admitsOwner p code = true) :
    Selection.all.admitsOwner p code = true := by
  rw [Selection.admitsOwner_all]
  unfold Selection.admitsOwner at h
  cases ho : p.owner? code with
  | none => rw [ho] at h; cases h
  | some n => rfl

theorem untagged_table_sublist :
    (table p ledger sel).untagged.Sublist (table p ledger Selection.all).untagged := by
  rw [untagged_table, untagged_table, Untagged.select, Untagged.select]
  exact (List.monotone_filter_right _ fun e he => admitsOwner_all_of_admitsOwner he).filter _

/-! ## 3. One table for each tag -/

/-- Whether a table is made does not depend on the tag. -/
theorem exists_build_iff :
    (∃ t, (build p file ledger sel).outcome = .ok t) ↔
      ∃ t, (build p file ledger Selection.all).outcome = .ok t := by
  simp only [build_eq_ok_iff]
  constructor
  · rintro ⟨t, ho, -⟩
    exact ⟨_, ho, rfl⟩
  · rintro ⟨t, ho, -⟩
    exact ⟨_, ho, rfl⟩

theorem passes_tag_iff {tag : String} {n : Node} :
    Selection.Passes ⟨some tag⟩ n ↔ tag ∈ n.tags := by
  simp [Selection.Passes]

/-- **Tables by tag.**  A table is made under a tag exactly if it is made without one, and then its
rows and its entries without a line code are some of those without a tag, in the same order.  If
each node of the program carries exactly one tag of a family, then each row without a tag is in the
table of exactly one tag of the family, and no other row is in any of these tables. -/
theorem tables_by_tag (p : Program) (file : FilePath) (ledger : Ledger) :
    (∀ tag, (∃ t, (build p file ledger ⟨some tag⟩).outcome = .ok t) ↔
      ∃ whole, (build p file ledger Selection.all).outcome = .ok whole) ∧
    ∀ whole, (build p file ledger Selection.all).outcome = .ok whole →
      (∀ tag t, (build p file ledger ⟨some tag⟩).outcome = .ok t →
        t.rows.Sublist whole.rows ∧ t.untagged.Sublist whole.untagged) ∧
      ∀ tags : Finset String, (∀ n ∈ p.nodes.values, ∃! tag, tag ∈ tags ∧ tag ∈ n.tags) →
        (∀ r ∈ whole.rows, ∃! tag, tag ∈ tags ∧
          ∃ t, (build p file ledger ⟨some tag⟩).outcome = .ok t ∧ r ∈ t.rows) ∧
        ∀ tag ∈ tags, ∀ t, (build p file ledger ⟨some tag⟩).outcome = .ok t →
          ∀ r ∈ t.rows, r ∈ whole.rows := by
  refine ⟨fun tag => exists_build_iff, fun whole hwhole => ?_⟩
  obtain ⟨ho, rfl⟩ := build_eq_ok_iff.mp hwhole
  have hrows : ∀ tag t, (build p file ledger ⟨some tag⟩).outcome = .ok t →
      t.rows.Sublist (table p ledger Selection.all).rows := by
    intro tag t ht
    obtain ⟨-, rfl⟩ := build_eq_ok_iff.mp ht
    rw [rows_table_eq_filter]
    exact List.filter_sublist
  refine ⟨fun tag t ht => ⟨hrows tag t ht, ?_⟩, fun tags htags => ⟨fun r hr => ?_,
    fun tag _ t ht r hr => (hrows tag t ht).subset hr⟩⟩
  · obtain ⟨-, rfl⟩ := build_eq_ok_iff.mp ht
    exact untagged_table_sublist
  · obtain ⟨text, htext, -⟩ := mem_rows_table_iff.mp hr
    obtain ⟨n, hn⟩ := exists_home?_of_exportedText htext
    obtain ⟨tag, ⟨htag, hmem⟩, honly⟩ := htags n (mem_nodes_of_home? hn)
    refine ⟨tag, ⟨htag, _, build_eq_ok_iff.mpr ⟨ho, rfl⟩, ?_⟩, ?_⟩
    · exact mem_rows_iff_home.mpr ⟨hr, n, hn, passes_tag_iff.mpr hmem⟩
    · rintro other ⟨hother, t, ht, hrt⟩
      obtain ⟨-, rfl⟩ := build_eq_ok_iff.mp ht
      obtain ⟨-, m, hm, hpass⟩ := mem_rows_iff_home.mp hrt
      obtain rfl : m = n := Option.some.inj (hm.symm.trans hn)
      exact honly other ⟨hother, passes_tag_iff.mp hpass⟩

/-! Two lines were delivered in the other's node, and each goes with the node in which it was
declared; a line whose node is not there is in none of the tables. -/

namespace Example

/-- Each of the two nodes carries one tag of two, and one of them another tag as well. -/
def voyage : Program :=
  ⟨Table.ofEntries [("Quay", ⟨"Quay", ["act1"], []⟩), ("Ship", ⟨"Ship", ["night", "act2"], []⟩)],
    Table.ofEntries [("line:2", "Set sail!"), ("shout", "Ahoy!"), ("line:1", "Who goes there?")],
    Table.ofEntries [("line:1", ⟨"Quay"⟩), ("line:2", ⟨"Ship"⟩), ("shout", ⟨"Ship"⟩)]⟩

def wholeVoyage : LineTable :=
  ⟨[⟨"line:1", "Who goes there?", "Aria", ""⟩, ⟨"line:2", "Set sail!", "Bram", ""⟩,
    ⟨"line:4", "Gulls cry.", "", ""⟩, ⟨"shout", "Ahoy!", "", ""⟩], [("shout", "Ahoy!")]⟩

def secondAct : LineTable :=
  ⟨[⟨"line:2", "Set sail!", "Bram", ""⟩, ⟨"shout", "Ahoy!", "", ""⟩], [("shout", "Ahoy!")]⟩

theorem tables_by_tag_voyage :
    (build voyage ⟨"story.json"⟩ deliveries Selection.all).outcome = .ok wholeVoyage ∧
      (build voyage ⟨"story.json"⟩ deliveries ⟨some "act2"⟩).outcome = .ok secondAct ∧
      secondAct.rows.Sublist wholeVoyage.rows ∧
      (∀ n ∈ voyage.nodes.values, ∃! tag, tag ∈ ({"act1", "act2"} : Finset String) ∧ tag ∈ n.tags) ∧
      ∀ r ∈ wholeVoyage.rows, ∃! tag, tag ∈ ({"act1", "act2"} : Finset String) ∧
        ∃ t, (build voyage ⟨"story.json"⟩ deliveries ⟨some tag⟩).outcome = .ok t ∧ r ∈ t.rows := by
  have hwhole : (build voyage ⟨"story.json"⟩ deliveries Selection.all).outcome =
      .ok wholeVoyage := rfl
  have hact : (build voyage ⟨"story.json"⟩ deliveries ⟨some "act2"⟩).outcome = .ok secondAct := rfl
  have htags : ∀ n ∈ voyage.nodes.values,
      ∃! tag, tag ∈ ({"act1", "act2"} : Finset String) ∧ tag ∈ n.tags := by
    have hnodes : voyage.nodes.values =
        [⟨"Quay", ["act1"], []⟩, ⟨"Ship", ["night", "act2"], []⟩] := rfl
    intro n hn
    rw [hnodes, List.mem_cons, List.mem_singleton] at hn
    rcases hn with rfl | rfl
    · exact ⟨"act1", by decide, by simp⟩
    · exact ⟨"act2", by decide, by simp⟩
  obtain ⟨hsub, hshare⟩ := (tables_by_tag voyage ⟨"story.json"⟩ deliveries).2 wholeVoyage hwhole
  exact ⟨hwhole, hact, (hsub "act2" secondAct hact).1, htags, (hshare _ htags).1⟩

end Example

end LineTable

end DialogueExport
