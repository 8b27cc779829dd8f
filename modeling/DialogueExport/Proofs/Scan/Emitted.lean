import DialogueExport.Proofs.Scan.Position
import Mathlib.Data.List.DropRight

/-!
# Which lines a program delivers, and in which order

`emittedCodes` lists the codes of all deliveries of a program without a scene: position by
position, a line where it is delivered and the queued options where they are shown.  The queue is
found by looking back to where options were last shown (`pending_after`), and a scan enters exactly
this list (`map_code_deliveries`).

Two things follow.  A line is among the codes exactly if it is delivered by an instruction of its
own or queued somewhere before options are shown (`exists_deliversAt_iff`).  And a scan that does
not allow repeats fails exactly if a code comes again, with the first one that does
(`outcome_scan_eq_error_iff`).

How many deliveries there are can be counted from the front.  An option counts where it is queued
and not where it is shown, so on the way the scene owes what waits
(`Scene.length_delivers_add_owed`, `Program.length_deliveries`). -/

namespace DialogueExport

/-! ## 1. The codes at a position -/

namespace Scan

/-- The option that an instruction queues. -/
def optionOf? : Instruction → Option String
  | .option code => some code
  | _ => none

/-- The options that were queued since options were last shown, in order. -/
def queued (is : List Instruction) : List String :=
  (is.rtakeWhile (· ≠ .showOptions)).filterMap optionOf?

/-- The codes of the lines that are delivered at position `k`, in order. -/
def codesAt (settings : ScanSettings) (is : List Instruction) (k : Nat) : List String :=
  match is[k]? with
  | some (.line code) => [code]
  | some .showOptions => if settings.captureOptions then queued (is.take k) else []
  | _ => []

/-- The codes of all lines that are delivered, in the order of their deliveries. -/
def emittedCodes (settings : ScanSettings) (is : List Instruction) : List String :=
  (List.range is.length).flatMap (codesAt settings is)

variable {settings : ScanSettings}

theorem queued_concat (is : List Instruction) (i : Instruction) :
    queued (is ++ [i]) = if i = .showOptions then [] else queued is ++ (optionOf? i).toList := by
  unfold queued
  rw [List.rtakeWhile_concat]
  by_cases hi : i = .showOptions
  · simp [hi]
  · cases h : optionOf? i <;> simp [hi, h]

/-- The codes at a position depend on nothing behind it. -/
theorem codesAt_concat_of_lt {is : List Instruction} {k : Nat} (hk : k < is.length)
    (i : Instruction) : codesAt settings (is ++ [i]) k = codesAt settings is k := by
  unfold codesAt
  rw [List.getElem?_append_left hk, List.take_append_of_le_length (Nat.le_of_lt hk)]

theorem codesAt_concat_length (is : List Instruction) (i : Instruction) :
    codesAt settings (is ++ [i]) is.length =
      match i with
      | .line code => [code]
      | .showOptions => if settings.captureOptions then queued is else []
      | _ => [] := by
  unfold codesAt
  rw [List.getElem?_concat_length, List.take_left]
  cases i <;> rfl

theorem emittedCodes_concat (is : List Instruction) (i : Instruction) :
    emittedCodes settings (is ++ [i]) =
      emittedCodes settings is ++ codesAt settings (is ++ [i]) is.length := by
  unfold emittedCodes
  rw [List.length_append, List.length_singleton, List.range_succ, List.flatMap_append,
    List.flatMap_singleton]
  congr 1
  exact List.flatMap_congr fun k hk => codesAt_concat_of_lt (List.mem_range.mp hk) i

end Scan

/-! ## 2. The scene knows the queue -/

namespace Scene

variable {settings : ScanSettings} {textOf : String → String}

/-- What waits is what was queued since options were last shown, if options are captured. -/
theorem pending_after (is : List Instruction) :
    (start.after settings is).pending =
      if settings.captureOptions then Scan.queued is else [] := by
  induction is using List.reverseRecOn with
  | nil => simp [start, Scan.queued]
  | append_singleton is i ih =>
    rw [after_concat, Scan.queued_concat]
    cases i with
    | line code => simp [advance, ih, Scan.optionOf?]
    | option code =>
      by_cases hs : settings.captureOptions = true
      · simp [advance, ih, hs, Scan.optionOf?]
      · simp [advance, ih, hs]
    | showOptions => simp [advance]
    | command text =>
      simp only [advance]
      split <;> simp [ih, Scan.optionOf?]
    | other opcode => simp [advance, ih, Scan.optionOf?]

theorem delivers_after (is : List Instruction) (i : Instruction) :
    (start.after settings is).delivers i = Scan.codesAt settings (is ++ [i]) is.length := by
  rw [Scan.codesAt_concat_length]
  cases i with
  | showOptions => exact pending_after is
  | line | option | command | other => rfl

theorem deliveries_concat (scene : Scene) (stream : List (String × Instruction))
    (s : String × Instruction) :
    scene.deliveries settings textOf (stream ++ [s]) =
      scene.deliveries settings textOf stream ++
        (scene.after settings (stream.map Prod.snd)).emissions settings textOf s.1 s.2 := by
  induction stream generalizing scene with
  | nil => simp [deliveries]
  | cons r stream ih => simp [deliveries, ih]

theorem map_code_emissions (scene : Scene) (node : String) (i : Instruction) :
    (scene.emissions settings textOf node i).map Emission.code = scene.delivers i := by
  simp [emissions, Function.comp_def]

/-- A stream delivers the codes that its instructions deliver at their positions. -/
theorem map_code_deliveries (stream : List (String × Instruction)) :
    (start.deliveries settings textOf stream).map Emission.code =
      Scan.emittedCodes settings (stream.map Prod.snd) := by
  induction stream using List.reverseRecOn with
  | nil => rfl
  | append_singleton stream s ih =>
    rw [deliveries_concat, List.map_append, ih, map_code_emissions, delivers_after,
      List.map_append, List.map_singleton, Scan.emittedCodes_concat]

end Scene

theorem Program.map_code_deliveries (p : Program) (settings : ScanSettings) :
    (p.deliveries settings).map Emission.code = Scan.emittedCodes settings p.instructions := by
  rw [deliveries, Scene.map_code_deliveries, map_snd_stream]

namespace Scan

/-! ## 3. Which lines are delivered -/

/-- The line is delivered by an instruction of its own, or options are captured and it is queued as
one somewhere before options are shown. -/
def Emits (settings : ScanSettings) (is : List Instruction) (code : String) : Prop :=
  .line code ∈ is ∨
    settings.captureOptions = true ∧
      ∃ j k : Nat, j < k ∧ is[j]? = some (.option code) ∧ is[k]? = some .showOptions

variable {p : Program} {file : FilePath} {settings : ScanSettings} {code : String}

/-- The first instruction after an option that shows options delivers it. -/
theorem exists_deliversAt_of_option {is : List Instruction} {j k : Nat}
    (hs : settings.captureOptions = true) (hjk : j < k) (hj : is[j]? = some (.option code))
    (hk : is[k]? = some .showOptions) : ∃ m, DeliversAt settings is code m := by
  classical
  have hex : ∃ m, j < m ∧ is[m]? = some .showOptions := ⟨k, hjk, hk⟩
  obtain ⟨hjm, hm⟩ := Nat.find_spec hex
  refine ⟨Nat.find hex, Or.inr ⟨hs, hm, j, hjm, hj, fun l hl hjl hshow => ?_⟩⟩
  exact Nat.find_min hex hl ⟨hjl, hshow⟩

theorem exists_deliversAt_iff {is : List Instruction} :
    (∃ k, DeliversAt settings is code k) ↔ Emits settings is code := by
  constructor
  · rintro ⟨k, hk | ⟨hs, hk, j, hjk, hj, -⟩⟩
    · exact Or.inl (List.mem_of_getElem? hk)
    · exact Or.inr ⟨hs, j, k, hjk, hj, hk⟩
  · rintro (hline | ⟨hs, j, k, hjk, hj, hk⟩)
    · obtain ⟨k, hk⟩ := List.mem_iff_getElem?.mp hline
      exact ⟨k, Or.inl hk⟩
    · exact exists_deliversAt_of_option hs hjk hj hk

/-! ## 4. When a scan fails -/

theorem has_add_iff {ledger : Ledger} {e : Emission} {code : String} :
    (ledger.add e).has code = true ↔ code = e.code ∨ ledger.has code = true := by
  simp only [Ledger.has, Table.contains_iff, Table.mem_keys_iff, Ledger.get?_add]
  cases ledger.observations.get? code with
  | some o => simp
  | none => simp [eq_comm]

/-- Where repeats are not allowed, the first code that comes again is the failure. -/
theorem outcome_foldlM_enter_abort {seen : List String} {ledger : Ledger}
    (hs : ∀ code, code ∈ seen ↔ ledger.has code = true) (es : List Emission) :
    (es.foldlM (enter file .abort) ledger).outcome =
      match firstRepeat seen (es.map Emission.code) with
      | some code => .error (.repeatedCode file code)
      | none => .ok (ledger.addAll es) := by
  induction es generalizing seen ledger with
  | nil => rfl
  | cons e es ih =>
    rw [List.foldlM_cons, Logged.outcome_bind, List.map_cons]
    by_cases he : ledger.has e.code = true
    · have hseen : e.code ∈ seen := (hs e.code).mpr he
      simp [enter, he, firstRepeat, hseen, bind, Except.bind]
    · have hseen : e.code ∉ seen := fun hm => he ((hs e.code).mp hm)
      have hs' : ∀ code, code ∈ e.code :: seen ↔ (ledger.add e).has code = true := by
        intro code
        rw [List.mem_cons, has_add_iff, hs]
      have hadd : (enter file .abort ledger e).outcome = .ok (ledger.add e) := by
        simp [enter, he]
      rw [hadd, firstRepeat, if_neg hseen]
      exact ih hs'

/-- How a scan ends that does not allow repeats. -/
theorem outcome_scan_of_abort (ha : settings.onRepeat = .abort) :
    (p.scan file settings).outcome =
      match firstRepeat [] (emittedCodes settings p.instructions) with
      | some code => .error (.repeatedCode file code)
      | none => .ok (Ledger.empty.addAll (p.deliveries settings)) := by
  rw [outcome_scan, ha, ← p.map_code_deliveries]
  exact outcome_foldlM_enter_abort (by simp [Ledger.has, Ledger.empty]) _

/-- A scan fails exactly if repeats are not allowed and a code comes again. -/
theorem outcome_scan_eq_error_iff {e : ExportError} :
    (p.scan file settings).outcome = .error e ↔
      settings.onRepeat = .abort ∧
        ∃ code, IsFirstRepeat (emittedCodes settings p.instructions) code ∧
          e = .repeatedCode file code := by
  cases ha : settings.onRepeat with
  | keepFirst => simp [outcome_scan_of_keepFirst ha]
  | abort =>
    simp only [outcome_scan_of_abort ha, ← firstRepeat_eq_some_iff, true_and]
    cases firstRepeat [] (emittedCodes settings p.instructions) with
    | none => simp
    | some code => simp [eq_comm]

/-- A scan comes to its end exactly if repeats are allowed or there are none. -/
theorem exists_outcome_scan_iff :
    (∃ ledger, (p.scan file settings).outcome = .ok ledger) ↔
      (settings.onRepeat = .abort → (emittedCodes settings p.instructions).Nodup) := by
  cases ha : settings.onRepeat with
  | keepFirst => simp [outcome_scan_of_keepFirst ha]
  | abort =>
    rw [outcome_scan_of_abort ha, ← firstRepeat_nil_eq_none_iff]
    cases firstRepeat [] (emittedCodes settings p.instructions) with
    | none => simp
    | some code => simp

/-- Where a scan comes to its end, it does so wherever the program is from. -/
theorem outcome_scan_of_ok {ledger : Ledger} (h : (p.scan file settings).outcome = .ok ledger)
    (file' : FilePath) : (p.scan file' settings).outcome = .ok ledger := by
  obtain ⟨ledger', h'⟩ := exists_outcome_scan_iff.mpr (exists_outcome_scan_iff.mp ⟨ledger, h⟩)
  rw [h', eq_addAll_of_scan h, eq_addAll_of_scan h']

/-! ## 5. How many lines are delivered -/

/-- The instruction delivers a line of its own. -/
def isLine : Instruction → Bool
  | .line _ => true
  | _ => false

/-- How many options are shown at some time after they were queued. -/
def shownCount : List Instruction → Nat
  | [] => 0
  | .option _ :: is => shownCount is + if .showOptions ∈ is then 1 else 0
  | _ :: is => shownCount is

/-- How many lines are delivered: those of their own and, if options are captured, the options that
are shown. -/
def deliveryCount (settings : ScanSettings) (is : List Instruction) : Nat :=
  is.countP isLine + if settings.captureOptions then shownCount is else 0

end Scan

namespace Scene

variable {settings : ScanSettings} {textOf : String → String}

/-- How many of the options that wait are still to be shown. -/
def owed (scene : Scene) (is : List Instruction) : Nat :=
  if .showOptions ∈ is then scene.pending.length else 0

/-- What an instruction delivers is counted with it, or it was owed before and is not any more. -/
theorem length_delivers_add_owed (scene : Scene) (i : Instruction) (is : List Instruction) :
    (scene.delivers i).length +
        (Scan.deliveryCount settings is + (scene.advance settings i).owed is) =
      Scan.deliveryCount settings (i :: is) + scene.owed (i :: is) := by
  cases i with
  | line code =>
    simp only [delivers, advance, owed, Scan.deliveryCount, Scan.shownCount, Scan.isLine,
      List.countP_cons, List.mem_cons, reduceCtorEq, false_or, List.length_singleton, if_true]
    omega
  | option code =>
    by_cases hc : settings.captureOptions = true
    · -- The option waits from here on, and is owed if options are shown again.
      by_cases hm : .showOptions ∈ is
      · simp only [delivers, advance, owed, Scan.deliveryCount, Scan.shownCount, Scan.isLine, hc, hm,
          List.countP_cons, List.mem_cons, reduceCtorEq, false_or, Bool.false_eq_true, if_true,
          if_false, List.length_append, List.length_nil, List.length_singleton]
        omega
      · simp [delivers, owed, Scan.deliveryCount, Scan.shownCount, Scan.isLine, hm]
    · simp [delivers, advance, owed, Scan.deliveryCount, Scan.isLine, hc]
  | showOptions =>
    simp only [delivers, advance, owed, Scan.deliveryCount, Scan.shownCount, Scan.isLine,
      List.countP_cons, List.mem_cons, true_or, Bool.false_eq_true, if_true, if_false,
      List.length_nil, ite_self]
    omega
  | command text =>
    have hp : (scene.advance settings (.command text)).pending = scene.pending := by
      simp only [advance]
      split <;> rfl
    simp [delivers, owed, hp, Scan.deliveryCount, Scan.shownCount, Scan.isLine]
  | other opcode =>
    simp [delivers, advance, owed, Scan.deliveryCount, Scan.shownCount, Scan.isLine]

theorem length_deliveries_eq_add_owed (scene : Scene) (stream : List (String × Instruction)) :
    (scene.deliveries settings textOf stream).length =
      Scan.deliveryCount settings (stream.map Prod.snd) + scene.owed (stream.map Prod.snd) := by
  induction stream generalizing scene with
  | nil => simp [deliveries, owed, Scan.deliveryCount, Scan.shownCount]
  | cons s stream ih =>
    obtain ⟨node, i⟩ := s
    rw [deliveries, List.length_append, emissions, List.length_map, ih, List.map_cons,
      length_delivers_add_owed]

end Scene

/-- In front of the first instruction nothing is owed. -/
theorem Program.length_deliveries (p : Program) (settings : ScanSettings) :
    (p.deliveries settings).length = Scan.deliveryCount settings p.instructions := by
  rw [deliveries, Scene.length_deliveries_eq_add_owed, map_snd_stream]
  simp [Scene.owed, Scene.start]

end DialogueExport
