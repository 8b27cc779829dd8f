import Mathlib.Data.List.DropRight
import DialogueExport.Program.Load
import DialogueExport.Proofs.Json.Extent

/-!
# A document is read to its end

A document that is cut off, or that goes on behind its end, is not read as another document.  This
does not go without saying, since all three fields of a document may be missing: a reader that
stopped early would find a smaller program.

A document is a record, so it is written in brackets (`exists_bracketed_of_decode`), and no text
starts with two values in brackets (`Spells.append_inj`).

Main statement: `malformed_of_cut_or_overlong`.
-/

namespace DialogueExport

open Json (Gap Reader Spells)

/-! ## 1. The readers of a program -/

namespace Wire

variable {P : ∀ {α : Type}, Reader α → Prop}

theorem closed_field (h : Reader.Closed P) {σ β : Type} {name : String} {get : σ → Option β}
    {set : β → σ → σ} {value : Reader β} (hv : P value) : P (field name get set value).read :=
  h.map set hv

theorem closed_operation (h : Reader.Closed P) : ∀ f ∈ operationShape.fields, P f.read := by
  intro f hf
  simp only [operationShape, List.mem_cons, List.not_mem_nil, or_false] at hf
  rcases hf with rfl | rfl
  · exact closed_field h h.text
  · exact closed_field h (h.nullable h.text)

theorem closed_node (h : Reader.Closed P) : ∀ f ∈ nodeShape.fields, P f.read := by
  intro f hf
  simp only [nodeShape, List.mem_cons, List.not_mem_nil, or_false] at hf
  rcases hf with rfl | rfl | rfl
  · exact closed_field h h.text
  · exact closed_field h (h.list h.text)
  · exact closed_field h (h.list (h.check instructionOf (h.record (closed_operation h))))

theorem closed_lineInfo (h : Reader.Closed P) : ∀ f ∈ lineInfoShape.fields, P f.read := by
  intro f hf
  simp only [lineInfoShape, List.mem_cons, List.not_mem_nil, or_false] at hf
  subst hf
  exact closed_field h h.text

end Wire

theorem Document.closed_fields {P : ∀ {α : Type}, Reader α → Prop} (h : Reader.Closed P) :
    ∀ f ∈ shape.fields, P f.read := by
  intro f hf
  simp only [shape, List.mem_cons, List.not_mem_nil, or_false] at hf
  rcases hf with rfl | rfl | rfl
  · exact Wire.closed_field h (h.list (h.record (Wire.closed_node h)))
  · exact Wire.closed_field h (h.entries h.text)
  · exact Wire.closed_field h (h.entries (h.record (Wire.closed_lineInfo h)))

namespace Document

/-- A text that is read as a document is a value in brackets with white space around it. -/
theorem exists_bracketed_of_decode {text : String} {d : Document}
    (h : reader.decode text = .ok d) :
    ∃ v t s w, text.toList = v ++ (s ++ w) ∧ Gap v ∧ Spells t s ∧ (∀ x, t ≠ .word x) ∧ Gap w := by
  obtain ⟨rest, hrun, hrest⟩ := Reader.decode_eq_ok_iff.mp h
  have hfields := closed_fields Reader.closed_spelling
  obtain ⟨v, t, s, htext, hv, hs, hword⟩ := Json.bracketed_record hfields hrun
  obtain ⟨w, hw, hcut⟩ := Json.exists_gap rest
  rw [hrest, List.append_nil] at hcut
  exact ⟨v, t, s, rest, htext, hv, hs, hword, hcut ▸ hw⟩

end Document

/-! ## 2. Cut off and overlong -/

namespace Program

/-- The text is refused as no document, whatever the names of its nodes. -/
def Malformed (text : String) : Prop := ∃ e, load text = .error (.malformed e)

theorem malformed_iff {text : String} :
    Malformed text ↔ ¬ ∃ d, Document.reader.decode text = .ok d := by
  unfold Malformed load
  cases h : Document.reader.decode text with
  | error e => simp
  | ok d =>
    simp only [Except.ok.injEq, exists_eq', not_true_eq_false, iff_false, not_exists]
    intro e he
    unfold ofDocument at he
    split at he <;> cases he

/-- The text without the white space behind it. -/
def trimmed (text : String) : List Char := text.toList.rdropWhile Json.isSpace

/-- Only what stands behind the closing bracket is white space. -/
theorem trimmed_eq {text : String} {v s w : List Char} {t : Json.Tree} (hs : Spells t s)
    (hword : ∀ x, t ≠ .word x) (hw : Gap w) (htext : text.toList = v ++ (s ++ w)) :
    trimmed text = v ++ s := by
  obtain ⟨x, c, rfl, hc⟩ := hs.exists_concat hword
  have hlast : (v ++ (x ++ [c])).reverse.dropWhile Json.isSpace = (v ++ (x ++ [c])).reverse := by
    rw [List.reverse_append, List.reverse_append, List.reverse_singleton, List.singleton_append,
      List.cons_append, List.dropWhile_cons_of_neg (by rw [hc]; decide)]
  have hgap : ∀ c ∈ w.reverse, Json.isSpace c = true := fun c hc => hw c (List.mem_reverse.mp hc)
  rw [trimmed, htext, List.rdropWhile, ← List.append_assoc v, List.reverse_append,
    List.dropWhile_append_of_pos hgap, hlast, List.reverse_reverse]

/-- **A cut-off or overlong document is refused.**  If a text is a document, then none of its
beginnings that lack more than white space is one, and it is none with anything but white space
behind it. -/
theorem malformed_of_cut_or_overlong {text : String} (h : ¬ Malformed text) :
    (∀ p, p <+: trimmed text → p ≠ trimmed text → Malformed (String.ofList p)) ∧
      ∀ x, (∃ c ∈ x, c ∉ [' ', '\t', '\n', '\r']) →
        Malformed (String.ofList (trimmed text ++ x)) := by
  rw [malformed_iff, not_not] at h
  obtain ⟨d, hd⟩ := h
  obtain ⟨v, t, s, w, htext, hv, hs, hword, hw⟩ := Document.exists_bracketed_of_decode hd
  rw [trimmed_eq hs hword hw htext]
  constructor
  · rintro p ⟨z, hz⟩ hne
    rw [malformed_iff]
    rintro ⟨d', hd'⟩
    obtain ⟨v', t', s', w', hp, hv', hs', hword', -⟩ := Document.exists_bracketed_of_decode hd'
    rw [String.toList_ofList] at hp
    have hsame : v ++ (s ++ []) = v' ++ (s' ++ (w' ++ z)) := by
      rw [List.append_nil, ← hz, hp]
      simp
    have hnil := hs.append_inj hs' hv hv' hword hword' hsame
    obtain ⟨-, rfl⟩ := List.append_eq_nil_iff.mp hnil.symm
    exact hne (by rw [← hz, List.append_nil])
  · rintro x ⟨c, hc, hspace⟩
    rw [malformed_iff]
    rintro ⟨d', hd'⟩
    obtain ⟨v', t', s', w', hp, hv', hs', hword', hw'⟩ := Document.exists_bracketed_of_decode hd'
    rw [String.toList_ofList, List.append_assoc] at hp
    obtain rfl := hs.append_inj hs' hv hv' hword hword' hp
    have := hw' c hc
    simp [Json.isSpace] at this hspace
    tauto

namespace Example

/-- A document whose last member is of no use, between blanks. -/
def jetty : String := " \x7b\"nodes\": [[\"Jetty\"]], \"note\": [1e3, \"]\"]\x7d \n"

theorem malformed_of_cut_or_overlong_jetty :
    ¬ Malformed jetty ∧ Malformed (String.ofList (trimmed jetty).dropLast) ∧
      Malformed (String.ofList (trimmed jetty ++ [' ', '0'])) := by
  have hload : ¬ Malformed jetty := by
    rw [malformed_iff, not_not]
    exact ⟨⟨[⟨"Jetty", [], []⟩], [], []⟩, by decide +kernel⟩
  obtain ⟨hcut, hlong⟩ := malformed_of_cut_or_overlong hload
  exact ⟨hload, hcut _ (List.dropLast_prefix _) (by decide +kernel),
    hlong _ ⟨'0', by simp, by decide⟩⟩

end Example

end Program

end DialogueExport
