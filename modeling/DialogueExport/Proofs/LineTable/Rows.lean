import DialogueExport.LineTable
import DialogueExport.Outcome
import DialogueExport.Proofs.Text.ByteOrder

/-!
# The rows of a table

Which rows a table has, and what stands in them.  Reading the string table either fails or is a
fold of `Draft.read`, which looks at nothing but the owner of its entry (`merge_eq_ok_iff`).  As no
key occurs twice, an entry decides on its own what becomes of its line, and a line without an entry
stays as the seed has it (`get?_foldl_read`).  So the text of each line is known without the fold:
`exportedText`.  The table is the lines that have one, in the order of their codes
(`mem_rows_table_iff`, `rows_table_pairwise`).

Main statement: `rows_of_build_eq_ok`, in the words of the program and the ledger.
-/

namespace DialogueExport

/-! ## 1. Owners -/

/-- The node in which a line was declared, if it is known. -/
def Program.owner? (p : Program) (code : String) : Option Node :=
  (p.lineInfo.get? code).bind fun info => p.nodes.get? info.node

theorem Program.owner_eq_ok_iff {p : Program} {file : FilePath} {code : String} {n : Node} :
    p.owner file code = .ok n ↔ p.owner? code = some n := by
  unfold Program.owner Program.owner?
  cases p.lineInfo.get? code with
  | none => simp
  | some info =>
    rw [Option.bind_some]
    dsimp only
    cases p.nodes.get? info.node with
    | none => simp
    | some m => simp

namespace Selection

variable {sel : Selection} {p : Program} {file : FilePath} {code : String}

/-- A node is exported if no tag is given, or if it carries the tag. -/
def Passes (sel : Selection) (n : Node) : Prop := ∀ tag, sel.tag = some tag → tag ∈ n.tags

theorem admitsNode_iff {n : Node} : sel.admitsNode n = true ↔ sel.Passes n := by
  unfold admitsNode Passes
  cases sel.tag with
  | none => simp
  | some tag => simp [Node.hasTag]

/-- Whether the owner of a line is known and exported. -/
def admitsOwner (sel : Selection) (p : Program) (code : String) : Bool :=
  (p.owner? code).any sel.admitsNode

theorem admits_eq_ok_iff {b : Bool} :
    sel.admits p file code = .ok b ↔ (p.owner? code).isSome ∧ b = sel.admitsOwner p code := by
  rw [admits, map_eq_ok, admitsOwner]
  constructor
  · rintro ⟨n, hn, rfl⟩
    rw [Program.owner_eq_ok_iff] at hn
    simp [hn]
  · rintro ⟨hs, rfl⟩
    obtain ⟨n, hn⟩ := Option.isSome_iff_exists.mp hs
    exact ⟨n, Program.owner_eq_ok_iff.mpr hn, by simp [hn]⟩

theorem admitsOwner_iff : sel.admitsOwner p code = true ↔
    ∃ info n, p.lineInfo.get? code = some info ∧ p.nodes.get? info.node = some n ∧
      sel.Passes n := by
  simp only [admitsOwner, Option.any_eq_true, Program.owner?, Option.bind_eq_some_iff,
    admitsNode_iff]
  constructor
  · rintro ⟨n, ⟨info, hi, hn⟩, hp⟩
    exact ⟨info, n, hi, hn, hp⟩
  · rintro ⟨info, n, hi, hn, hp⟩
    exact ⟨n, ⟨info, hi, hn⟩, hp⟩

theorem admitsName_iff {name : String} : sel.admitsName p name = true ↔
    ∃ n, p.nodes.get? name = some n ∧ sel.Passes n := by
  simp only [admitsName, Option.any_eq_true, admitsNode_iff]

theorem passes_all (n : Node) : Selection.all.Passes n := by
  rintro tag ⟨⟩

theorem admitsOwner_all : Selection.all.admitsOwner p code = (p.owner? code).isSome := by
  unfold admitsOwner
  cases p.owner? code <;> rfl

end Selection

namespace LineTable

variable {p : Program} {file : FilePath} {ledger : Ledger} {sel : Selection}

/-! ## 2. Reading the string table -/

/-- What an entry of the string table whose owner is known does to the table. -/
def Draft.read (p : Program) (sel : Selection) (d : Draft) (e : String × String) : Draft :=
  if sel.admitsOwner p e.1 then ⟨d.texts.insert e.1 e.2, d.selected ++ [e]⟩
  else ⟨d.texts.erase e.1, d.selected⟩

theorem mergeEntry_eq_ok_iff {d d' : Draft} {e : String × String} :
    (mergeEntry p file sel d e).outcome = .ok d' ↔
      (p.owner? e.1).isSome ∧ d' = d.read p sel e := by
  rw [mergeEntry, Logged.outcome_bind, bind_eq_ok, Draft.read]
  constructor
  · rintro ⟨b, hb, hd⟩
    obtain ⟨hs, rfl⟩ := Selection.admits_eq_ok_iff.mp hb
    refine ⟨hs, ?_⟩
    split at hd
    · next h => rw [if_pos h]; exact (Except.ok.inj hd).symm
    · next h => rw [if_neg h]; exact (Except.ok.inj hd).symm
  · rintro ⟨hs, rfl⟩
    refine ⟨sel.admitsOwner p e.1, Selection.admits_eq_ok_iff.mpr ⟨hs, rfl⟩, ?_⟩
    split <;> rfl

/-- Entries are read to the end exactly if the owners of all of them are known. -/
theorem merge_eq_ok_iff {d d' : Draft} {entries : List (String × String)} :
    (merge p file sel d entries).outcome = .ok d' ↔
      (∀ e ∈ entries, (p.owner? e.1).isSome) ∧ d' = entries.foldl (Draft.read p sel) d := by
  induction entries generalizing d with
  | nil =>
    simp only [merge, List.foldlM_nil, Logged.outcome_pure, Except.ok.injEq, List.foldl_nil]
    constructor
    · rintro rfl
      exact ⟨by simp, rfl⟩
    · rintro ⟨-, rfl⟩
      rfl
  | cons e entries ih =>
    rw [merge, List.foldlM_cons, Logged.outcome_bind, bind_eq_ok]
    simp only [mergeEntry_eq_ok_iff, List.forall_mem_cons, List.foldl_cons]
    constructor
    · rintro ⟨d₁, ⟨he, rfl⟩, hd⟩
      obtain ⟨hes, rfl⟩ := ih.mp hd
      exact ⟨⟨he, hes⟩, rfl⟩
    · rintro ⟨⟨he, hes⟩, rfl⟩
      exact ⟨_, ⟨he, rfl⟩, ih.mpr ⟨hes, rfl⟩⟩

/-- An entry decides what becomes of its own line and of no other. -/
theorem get?_read (d : Draft) (e : String × String) (code : String) :
    (d.read p sel e).texts.get? code =
      if code = e.1 then (if sel.admitsOwner p code then some e.2 else none)
      else d.texts.get? code := by
  unfold Draft.read
  by_cases hc : code = e.1
  · subst hc
    split
    · simp
    · simp [Table.get?_erase]
  · split
    · simp [Table.get?_insert, hc]
    · simp [Table.get?_erase, hc]

theorem get?_foldl_read {entries : List (String × String)} (d : Draft)
    (hn : (entries.map Prod.fst).Nodup) (code : String) :
    (entries.foldl (Draft.read p sel) d).texts.get? code =
      match entries.lookup code with
      | some text => if sel.admitsOwner p code then some text else none
      | none => d.texts.get? code := by
  induction entries generalizing d with
  | nil => rfl
  | cons e entries ih =>
    have hn' : e.1 ∉ entries.map Prod.fst ∧ (entries.map Prod.fst).Nodup := by simpa using hn
    rw [List.foldl_cons, ih _ hn'.2, get?_read]
    by_cases hc : code = e.1
    · -- No later entry has this key, so what this one says is the last word.
      subst hc
      rw [Table.lookup_eq_none_iff.mpr hn'.1]
      rw [List.lookup_cons_self, if_pos rfl]
    · have hb : (code == e.1) = false := by simp [hc]
      rw [List.lookup_cons, hb, if_neg hc]

theorem selected_foldl_read (entries : List (String × String)) (d : Draft) :
    (entries.foldl (Draft.read p sel) d).selected =
      d.selected ++ entries.filter fun e => sel.admitsOwner p e.1 := by
  induction entries generalizing d with
  | nil => simp
  | cons e entries ih =>
    rw [List.foldl_cons, ih, Draft.read]
    by_cases he : sel.admitsOwner p e.1 = true
    · simp [he]
    · simp [he]

/-! ## 3. The text of a line -/

/-- The text under which a line is exported, if it is. -/
def exportedText (p : Program) (ledger : Ledger) (sel : Selection) (code : String) :
    Option String :=
  match p.strings.get? code with
  | some text => if sel.admitsOwner p code then some text else none
  | none =>
    (ledger.observations.get? code).bind fun o =>
      if sel.admitsName p o.node then some o.text else none

/-- The draft of a program whose owners are all known. -/
def draft (p : Program) (ledger : Ledger) (sel : Selection) : Draft :=
  p.strings.entries.foldl (Draft.read p sel) ⟨seed p ledger sel, []⟩

theorem get?_texts_draft (code : String) :
    (draft p ledger sel).texts.get? code = exportedText p ledger sel code := by
  rw [draft, get?_foldl_read _ p.strings.keys_nodup, exportedText, seed, Table.get?_filterMap]
  rfl

theorem exportedText_eq_some_iff {code text : String} :
    exportedText p ledger sel code = some text ↔
      p.strings.get? code = some text ∧ sel.admitsOwner p code = true ∨
        p.strings.get? code = none ∧ ∃ o, ledger.observations.get? code = some o ∧
          sel.admitsName p o.node = true ∧ text = o.text := by
  unfold exportedText
  cases p.strings.get? code with
  | some t => simp [and_comm]
  | none =>
    cases ledger.observations.get? code with
    | none => simp
    | some o =>
      by_cases h : sel.admitsName p o.node = true
      · simp only [Option.bind_some, h, if_true, Option.some.injEq, reduceCtorEq, false_and,
          false_or, true_and, exists_eq_left']
        exact eq_comm
      · simp [h]

/-! ## 4. The table -/

/-- The table of a program whose owners are all known. -/
def table (p : Program) (ledger : Ledger) (sel : Selection) : LineTable :=
  ⟨(sortByKey (draft p ledger sel).texts.entries).map fun e => rowOf ledger e.1 e.2,
    Untagged.select (draft p ledger sel).selected⟩

/-- A table is made exactly if the owners of all entries of the string table are known. -/
theorem build_eq_ok_iff {t : LineTable} :
    (build p file ledger sel).outcome = .ok t ↔
      (∀ code ∈ p.strings.keys, (p.owner? code).isSome) ∧ t = table p ledger sel := by
  have hk : (∀ e ∈ p.strings.entries, (p.owner? e.1).isSome) ↔
      ∀ code ∈ p.strings.keys, (p.owner? code).isSome := by
    simp only [Table.keys, List.forall_mem_map]
  rw [build, Logged.outcome_bind, bind_eq_ok]
  simp only [merge_eq_ok_iff, hk]
  constructor
  · rintro ⟨d, ⟨ho, rfl⟩, ht⟩
    exact ⟨ho, (Except.ok.inj ht).symm⟩
  · rintro ⟨ho, rfl⟩
    exact ⟨_, ⟨ho, rfl⟩, rfl⟩

/-- A table is made of a program exactly if it is scanned to the end and built. -/
theorem ofProgram_eq_ok_iff {settings : ScanSettings} {t : LineTable} :
    (ofProgram p file sel settings).outcome = .ok t ↔
      ∃ ledger, (p.scan file settings).outcome = .ok ledger ∧
        (build p file ledger sel).outcome = .ok t := by
  simp only [ofProgram, Logged.outcome_bind, Logged.outcome_report, bind_eq_ok, true_and,
    exists_const]

theorem mem_rows_table_iff {r : Row} :
    r ∈ (table p ledger sel).rows ↔
      ∃ text, exportedText p ledger sel r.code = some text ∧ r = rowOf ledger r.code text := by
  simp only [table, List.mem_map, (sortByKey_perm _).mem_iff]
  constructor
  · rintro ⟨e, he, rfl⟩
    refine ⟨e.2, ?_, rfl⟩
    rw [← get?_texts_draft]
    exact Table.mem_entries_iff.mp he
  · rintro ⟨text, ht, hr⟩
    rw [← get?_texts_draft] at ht
    exact ⟨(r.code, text), Table.mem_entries_iff.mpr ht, hr.symm⟩

theorem rows_table_pairwise :
    (table p ledger sel).rows.Pairwise fun a b => a.code < b.code := by
  rw [table, List.pairwise_map]
  exact sortByKey_pairwise_lt (draft p ledger sel).texts.keys_nodup

theorem nodup_codes_table : ((table p ledger sel).rows.map Row.code).Nodup := by
  rw [List.Nodup, List.pairwise_map]
  refine rows_table_pairwise.imp fun {a b} hlt heq => ?_
  rw [heq] at hlt
  exact String.lt_irrefl _ hlt

/-- The text of a row that the string table knows is from there, that of any other row is the one
under which it was delivered. -/
theorem text_of_mem_rows {r : Row} (hr : r ∈ (table p ledger sel).rows) :
    (r.code ∈ p.strings.keys → p.strings.get? r.code = some r.text) ∧
      (r.code ∉ p.strings.keys →
        ∃ o, ledger.observations.get? r.code = some o ∧ r.text = o.text) := by
  obtain ⟨text, ht, hrow⟩ := mem_rows_table_iff.mp hr
  have hrt : r.text = text := congrArg Row.text hrow
  rw [hrt]
  rcases exportedText_eq_some_iff.mp ht with ⟨hs, -⟩ | ⟨hs, o, ho, -, hto⟩
  · refine ⟨fun _ => hs, fun hk => absurd hs ?_⟩
    rw [Table.get?_eq_none_iff.mpr hk]
    exact Option.some_ne_none _ ∘ Eq.symm
  · exact ⟨fun hk => absurd hk (Table.get?_eq_none_iff.mp hs), fun _ => ⟨o, ho, hto⟩⟩

/-- A line has a row if the string table knows it and its owner is exported, or if the string table
does not know it and it was delivered in a node that is exported. -/
theorem exists_row_iff {code : String} :
    (∃ r ∈ (table p ledger sel).rows, r.code = code) ↔
      (code ∈ p.strings.keys ∧ sel.admitsOwner p code = true) ∨
        (code ∉ p.strings.keys ∧
          ∃ o, ledger.observations.get? code = some o ∧ sel.admitsName p o.node = true) := by
  constructor
  · rintro ⟨r, hr, rfl⟩
    obtain ⟨text, ht, -⟩ := mem_rows_table_iff.mp hr
    rcases exportedText_eq_some_iff.mp ht with ⟨hs, ho⟩ | ⟨hs, o, ho, hn, -⟩
    · exact Or.inl ⟨Table.mem_keys_iff.mpr ⟨text, hs⟩, ho⟩
    · exact Or.inr ⟨Table.get?_eq_none_iff.mp hs, o, ho, hn⟩
  · intro h
    have : ∃ text, exportedText p ledger sel code = some text := by
      simp only [exportedText_eq_some_iff]
      rcases h with ⟨hk, ho⟩ | ⟨hk, o, ho, hn⟩
      · obtain ⟨text, hs⟩ := Table.mem_keys_iff.mp hk
        exact ⟨text, Or.inl ⟨hs, ho⟩⟩
      · exact ⟨o.text, Or.inr ⟨Table.get?_eq_none_iff.mpr hk, o, ho, hn, rfl⟩⟩
    obtain ⟨text, ht⟩ := this
    exact ⟨rowOf ledger code text, mem_rows_table_iff.mpr ⟨text, ht, rfl⟩, rfl⟩

/-- The speaker of a row is the one of the first delivery, wherever that was. -/
theorem character_of_mem_rows {r : Row} (hr : r ∈ (table p ledger sel).rows) :
    (∀ o, ledger.observations.get? r.code = some o → r.character = o.speaker) ∧
      (ledger.observations.get? r.code = none → r.character = "") := by
  obtain ⟨text, -, hrow⟩ := mem_rows_table_iff.mp hr
  have hc : r.character = (ledger.speaker? r.code).getD "" := congrArg Row.character hrow
  rw [hc, Ledger.speaker?]
  constructor
  · intro o ho
    rw [ho]
    rfl
  · intro hn
    rw [hn]
    rfl

/-- **The rows of a table.**  They ascend in the order of the bytes of their codes.  A line has one
exactly if the string table knows it and the node in which it was declared passes, or if the string
table does not know it and the node in which it was delivered is there and passes.  The text of the
string table wins, the speaker is the one of the first delivery, and the comment is empty. -/
theorem rows_of_build_eq_ok {t : LineTable} (h : (build p file ledger sel).outcome = .ok t) :
    (t.rows.Pairwise fun a b => Text.utf8 a.code < Text.utf8 b.code) ∧
      (∀ code, (∃ r ∈ t.rows, r.code = code) ↔
        (code ∈ p.strings.keys ∧ ∃ info n, p.lineInfo.get? code = some info ∧
          p.nodes.get? info.node = some n ∧ sel.Passes n) ∨
        (code ∉ p.strings.keys ∧ ∃ o n, ledger.observations.get? code = some o ∧
          p.nodes.get? o.node = some n ∧ sel.Passes n)) ∧
      ∀ r ∈ t.rows,
        (r.code ∈ p.strings.keys → p.strings.get? r.code = some r.text) ∧
        (r.code ∉ p.strings.keys →
          ∃ o, ledger.observations.get? r.code = some o ∧ r.text = o.text) ∧
        (∀ o, ledger.observations.get? r.code = some o → r.character = o.speaker) ∧
        (ledger.observations.get? r.code = none → r.character = "") ∧
        r.comment = "" := by
  obtain ⟨-, rfl⟩ := build_eq_ok_iff.mp h
  refine ⟨rows_table_pairwise.imp fun hlt => Text.utf8_lt_utf8_iff.mpr hlt, fun code => ?_,
    fun r hr => ?_⟩
  · rw [exists_row_iff, Selection.admitsOwner_iff]
    simp only [Selection.admitsName_iff, exists_and_left]
  · obtain ⟨htext, hdelivered⟩ := text_of_mem_rows hr
    obtain ⟨hspoken, hsilent⟩ := character_of_mem_rows hr
    obtain ⟨text, -, hrow⟩ := mem_rows_table_iff.mp hr
    exact ⟨htext, hdelivered, hspoken, hsilent, congrArg Row.comment hrow⟩

/-! ## 5. A table with every kind of line -/

namespace Example

/-- Two nodes, one of them with a tag.  Each of the lines in the string table belongs to one. -/
def harbour : Program :=
  ⟨Table.ofEntries [("Quay", ⟨"Quay", ["act1"], []⟩), ("Ship", ⟨"Ship", [], []⟩)],
    Table.ofEntries [("line:2", "Set sail!"), ("line:1", "Who goes there?")],
    Table.ofEntries [("line:1", ⟨"Quay"⟩), ("line:2", ⟨"Ship"⟩)]⟩

/-- Both lines were delivered in the other node under an old text.  Two lines are not in the string
table, and the node of one of them is not there. -/
def deliveries : Ledger :=
  ⟨Table.ofEntries [("line:1", ⟨"Halt!", "Aria", "Ship"⟩), ("line:2", ⟨"Ahoy!", "Bram", "Quay"⟩),
    ("line:4", ⟨"Gulls cry.", "", "Quay"⟩), ("line:3", ⟨"Waves.", "", "Reef"⟩)], []⟩

/-- `line:1` stays, as it is declared under the tag, and keeps its speaker; `line:2` was delivered
under the tag but is declared elsewhere. -/
theorem rows_of_build_harbour :
    (build harbour ⟨"story.json"⟩ deliveries ⟨some "act1"⟩).outcome =
        .ok ⟨[⟨"line:1", "Who goes there?", "Aria", ""⟩, ⟨"line:4", "Gulls cry.", "", ""⟩], []⟩ ∧
      [(⟨"line:1", "Who goes there?", "Aria", ""⟩ : Row), ⟨"line:4", "Gulls cry.", "", ""⟩].Pairwise
        fun a b => Text.utf8 a.code < Text.utf8 b.code := by
  have h : (build harbour ⟨"story.json"⟩ deliveries ⟨some "act1"⟩).outcome =
      .ok ⟨[⟨"line:1", "Who goes there?", "Aria", ""⟩, ⟨"line:4", "Gulls cry.", "", ""⟩], []⟩ := rfl
  exact ⟨h, (rows_of_build_eq_ok h).1⟩

end Example

end LineTable

end DialogueExport
