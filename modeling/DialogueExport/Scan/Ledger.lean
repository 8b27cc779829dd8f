import DialogueExport.Scan.Scene

/-!
# The ledger of deliveries

The ledger keeps the first delivery of every line, in the order in which the lines came, and
the codes of all later deliveries.  Every delivery is kept in one of the two ways
(`size_add`).
-/

namespace DialogueExport

/-- The first delivery of each line and the codes of the others (`ScanResult`). -/
structure Ledger where
  observations : Table String Observation
  /-- The codes of deliveries that were not the first, in order. -/
  repeats : List String

namespace Ledger

def empty : Ledger := ⟨Table.empty, []⟩

/-- Whether a line was delivered. -/
def has (l : Ledger) (code : String) : Bool := l.observations.contains code

/-- Enters a delivery (`observe`). -/
def add (l : Ledger) (e : Emission) : Ledger :=
  if l.has e.code then { l with repeats := l.repeats ++ [e.code] }
  else { l with observations := l.observations.insert e.code e.observation }

theorem add_of_mem {l : Ledger} {e : Emission} (h : e.code ∈ l.observations.keys) :
    l.add e = { l with repeats := l.repeats ++ [e.code] } :=
  if_pos (Table.contains_iff.2 h)

theorem add_of_not_mem {l : Ledger} {e : Emission} (h : e.code ∉ l.observations.keys) :
    l.add e = { l with observations := l.observations.insert e.code e.observation } :=
  if_neg fun hc => h (Table.contains_iff.1 hc)

/-- Enters deliveries one after the other. -/
def addAll (l : Ledger) (es : List Emission) : Ledger := es.foldl add l

/-- Who spoke a line when it was first delivered (`speaker_for`). -/
def speaker? (l : Ledger) (code : String) : Option String :=
  (l.observations.get? code).map Observation.speaker

/-- A delivery is either the first of its line or a repeat. -/
theorem size_add (l : Ledger) (e : Emission) :
    (l.add e).observations.size + (l.add e).repeats.length =
      l.observations.size + l.repeats.length + 1 := by
  by_cases hm : e.code ∈ l.observations.keys
  · simp only [add_of_mem hm, List.length_append, List.length_singleton]
    omega
  · simp only [add_of_not_mem hm, Table.size, Table.entries_insert_of_not_mem _ hm,
      List.length_append, List.length_singleton]
    omega

theorem size_addAll (l : Ledger) (es : List Emission) :
    (l.addAll es).observations.size + (l.addAll es).repeats.length =
      l.observations.size + l.repeats.length + es.length := by
  induction es generalizing l with
  | nil => rfl
  | cons e es ih =>
    have := size_add l e
    have := ih (l.add e)
    simp only [addAll, List.foldl_cons, List.length_cons] at *
    omega

end Ledger

end DialogueExport
