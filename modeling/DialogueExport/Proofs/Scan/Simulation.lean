import DialogueExport.Proofs.Scan.Emitted
import Mathlib.Data.List.Forall2

/-!
# Two scans side by side

Two scans are compared delivery by delivery.  If both deliver the same lines in the same order and
the observations of the two deliveries are always in a relation `R`, then the ledgers stay alike
while the deliveries are entered (`Ledger.Rel.add` for one of them, `Ledger.Rel.addAll` for all):
what is a repeat for one scan is a repeat for the other.  So both scans fail with the same code, or
both come to their end with ledgers that are alike (`Scan.related_scan`).

What `R` is does not matter here; it may forget what the two scans are allowed to differ in.
-/

namespace DialogueExport

/-! ## 1. Deliveries and ledgers that are alike -/

/-- The same line is delivered, with related observations. -/
def Emission.Rel (R : Observation → Observation → Prop) (e e' : Emission) : Prop :=
  e.code = e'.code ∧ R e.observation e'.observation

/-- The same lines were heard in the same order, with related observations, and the same lines came
again. -/
structure Ledger.Rel (R : Observation → Observation → Prop) (l l' : Ledger) : Prop where
  entries : List.Forall₂ (fun e e' => e.1 = e'.1 ∧ R e.2 e'.2) l.observations.entries
    l'.observations.entries
  repeats : l.repeats = l'.repeats

variable {R : Observation → Observation → Prop}

namespace Ledger

theorem rel_empty : Ledger.empty.Rel R Ledger.empty := ⟨.nil, rfl⟩

theorem Rel.keys_eq {l l' : Ledger} (h : l.Rel R l') :
    l.observations.keys = l'.observations.keys := by
  have hkeys : List.Forall₂ (fun e e' : String × Observation => e.1 = e'.1) l.observations.entries
      l'.observations.entries := h.entries.imp fun _ _ h => h.1
  rw [Table.keys, Table.keys, ← List.forall₂_eq_eq_eq, List.forall₂_map_left_iff,
    List.forall₂_map_right_iff]
  exact hkeys

theorem rel_lookup {es es' : List (String × Observation)}
    (h : List.Forall₂ (fun e e' => e.1 = e'.1 ∧ R e.2 e'.2) es es') (code : String) :
    Option.Rel R (es.lookup code) (es'.lookup code) := by
  induction h with
  | nil => exact .none
  | cons he _ ih =>
    obtain ⟨hkey, ho⟩ := he
    rw [List.lookup_cons, List.lookup_cons, hkey]
    split
    · exact .some ho
    · exact ih

/-- A line is found in both ledgers, with related observations, or in neither. -/
theorem Rel.get? {l l' : Ledger} (h : l.Rel R l') (code : String) :
    Option.Rel R (l.observations.get? code) (l'.observations.get? code) :=
  rel_lookup h.entries code

/-- Entering one delivery keeps ledgers alike. -/
theorem Rel.add {l l' : Ledger} {e e' : Emission} (h : l.Rel R l') (he : e.Rel R e') :
    (l.add e).Rel R (l'.add e') := by
  obtain ⟨code, o⟩ := e
  obtain ⟨code', o'⟩ := e'
  obtain ⟨rfl, ho⟩ : code = code' ∧ R o o' := he
  by_cases hm : code ∈ l.observations.keys
  · -- A repeat on one side is one on the other.
    have hm' : code ∈ l'.observations.keys := h.keys_eq ▸ hm
    rw [add_of_mem hm, add_of_mem hm']
    exact ⟨h.entries, congrArg (· ++ [code]) h.repeats⟩
  · have hm' : code ∉ l'.observations.keys := h.keys_eq ▸ hm
    rw [add_of_not_mem hm, add_of_not_mem hm']
    refine ⟨?_, h.repeats⟩
    rw [Table.entries_insert_of_not_mem o hm, Table.entries_insert_of_not_mem o' hm']
    exact List.rel_append h.entries (.cons ⟨rfl, ho⟩ .nil)

/-- Entering deliveries one after the other keeps ledgers alike. -/
theorem Rel.addAll {l l' : Ledger} {es es' : List Emission} (h : l.Rel R l')
    (hes : List.Forall₂ (Emission.Rel R) es es') : (l.addAll es).Rel R (l'.addAll es') := by
  induction hes generalizing l l' with
  | nil => exact h
  | cons he _ ih => exact ih (h.add he)

end Ledger

/-! ## 2. Scans that are alike -/

namespace Scan

/-- Two scans fail at the same code, or both come to their end with ledgers that are alike. -/
inductive Related (R : Observation → Observation → Prop) (file file' : FilePath) :
    Except ExportError Ledger → Except ExportError Ledger → Prop
  | repeated (code : String) :
      Related R file file' (.error (.repeatedCode file code)) (.error (.repeatedCode file' code))
  | scanned {l l' : Ledger} (h : l.Rel R l') : Related R file file' (.ok l) (.ok l')

theorem map_code_eq_of_forall₂ {es es' : List Emission}
    (h : List.Forall₂ (Emission.Rel R) es es') :
    es.map Emission.code = es'.map Emission.code := by
  rw [← List.forall₂_eq_eq_eq, List.forall₂_map_left_iff, List.forall₂_map_right_iff]
  exact h.imp fun _ _ he => he.1

/-- Scans whose deliveries are alike are alike. -/
theorem related_scan {p q : Program} {file file' : FilePath} {settings settings' : ScanSettings}
    (hr : settings.onRepeat = settings'.onRepeat)
    (h : List.Forall₂ (Emission.Rel R) (p.deliveries settings) (q.deliveries settings')) :
    Related R file file' (p.scan file settings).outcome (q.scan file' settings').outcome := by
  have hledger := Ledger.rel_empty.addAll h
  cases ha : settings.onRepeat with
  | keepFirst =>
    rw [outcome_scan_of_keepFirst ha, outcome_scan_of_keepFirst (hr ▸ ha)]
    exact .scanned hledger
  | abort =>
    have hcodes : emittedCodes settings p.instructions = emittedCodes settings' q.instructions := by
      rw [← p.map_code_deliveries, ← q.map_code_deliveries, map_code_eq_of_forall₂ h]
    rw [outcome_scan_of_abort ha, outcome_scan_of_abort (hr ▸ ha), hcodes]
    cases firstRepeat [] (emittedCodes settings' q.instructions) with
    | some code => exact .repeated code
    | none => exact .scanned hledger

end Scan

end DialogueExport
