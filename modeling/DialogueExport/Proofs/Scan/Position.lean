import DialogueExport.Proofs.Scan.Deliveries
import Mathlib.Data.List.Induction
import Mathlib.Data.Nat.Find

/-!
# Where a line is delivered

`DeliversAt` says without a scene at which positions of a program a line is delivered: where an
instruction delivers it, and where options are shown of which it is one.  An option waits from the
instruction that queues it to the next one that shows options, across all nodes in between
(`mem_pending_after_iff`); the induction is on the instructions from behind, as the queue is what
the last ones have left.

The observation of a line comes from its first position (`get?_of_firstDelivery`), and a line
that is delivered anywhere has one (`mem_keys_iff_firstDelivery`).
-/

namespace DialogueExport

/-! ## 1. Options that wait -/

namespace Scene

variable {settings : ScanSettings} {code : String}

theorem mem_pending_advance_iff {scene : Scene} {i : Instruction} :
    code ∈ (scene.advance settings i).pending ↔
      i ≠ .showOptions ∧
        (code ∈ scene.pending ∨ settings.captureOptions = true ∧ i = .option code) := by
  cases i with
  | line c => simp [advance]
  | option c =>
    by_cases h : settings.captureOptions = true
    · simp [advance, h, eq_comm]
    · simp [advance, h]
  | showOptions => simp [advance]
  | command text =>
    simp only [advance]
    split <;> simp
  | other opcode => simp [advance]

theorem getElem?_concat_eq_some_iff {α : Type} {l : List α} {a b : α} {m : Nat} :
    (l ++ [a])[m]? = some b ↔ l[m]? = some b ∨ m = l.length ∧ a = b := by
  rcases Nat.lt_trichotomy m l.length with h | rfl | h
  · rw [List.getElem?_append_left h]
    simp [Nat.ne_of_lt h]
  · simp
  · rw [List.getElem?_eq_none (by simpa using Nat.succ_le_of_lt h),
      List.getElem?_eq_none (Nat.le_of_lt h)]
    simp [Nat.ne_of_gt h]

/-- An option waits exactly if options are captured and none were shown since it was queued. -/
theorem mem_pending_after_iff {is : List Instruction} :
    code ∈ (start.after settings is).pending ↔
      settings.captureOptions = true ∧
        ∃ j : Nat, is[j]? = some (.option code) ∧
          ∀ m : Nat, j < m → is[m]? ≠ some .showOptions := by
  induction is using List.reverseRecOn with
  | nil => simp [start]
  | append_singleton is i ih =>
    rw [after_concat, mem_pending_advance_iff, ih]
    simp only [ne_eq, getElem?_concat_eq_some_iff, not_or, not_and]
    constructor
    · rintro ⟨hi, ⟨hs, j, hj, hm⟩ | ⟨hs, rfl⟩⟩
      · exact ⟨hs, j, Or.inl hj, fun m hjm => ⟨hm m hjm, fun _ => hi⟩⟩
      · refine ⟨hs, is.length, Or.inr ⟨rfl, rfl⟩, fun m hm => ⟨?_, fun _ => Instruction.noConfusion⟩⟩
        rw [List.getElem?_eq_none (Nat.le_of_lt hm)]
        exact Option.some_ne_none _ ∘ Eq.symm
    · rintro ⟨hs, j, hj | ⟨rfl, rfl⟩, hm⟩
      · have hlt : j < is.length := (List.getElem?_eq_some_iff.mp hj).1
        exact ⟨(hm is.length hlt).2 rfl, Or.inl ⟨hs, j, hj, fun m hjm => (hm m hjm).1⟩⟩
      · exact ⟨Instruction.noConfusion, Or.inr ⟨hs, rfl⟩⟩

end Scene

/-! ## 2. Positions -/

namespace Scan

/-- The line is delivered at position `k`: by an instruction of its own, or by one that shows
options, if options are captured and this one was queued since options were last shown. -/
def DeliversAt (settings : ScanSettings) (is : List Instruction) (code : String) (k : Nat) : Prop :=
  is[k]? = some (.line code) ∨
    settings.captureOptions = true ∧ is[k]? = some .showOptions ∧
      ∃ j < k, is[j]? = some (.option code) ∧ ∀ m < k, j < m → is[m]? ≠ some .showOptions

/-- The line is delivered at position `k` and nowhere before. -/
def FirstDelivery (settings : ScanSettings) (is : List Instruction) (code : String) (k : Nat) :
    Prop :=
  DeliversAt settings is code k ∧ ∀ j < k, ¬ DeliversAt settings is code j

instance (settings : ScanSettings) (is : List Instruction) (code : String) (k : Nat) :
    Decidable (DeliversAt settings is code k) :=
  inferInstanceAs (Decidable (_ ∨ _ ∧ _ ∧ ∃ j < k, _ ∧ ∀ m < k, _ → _))

instance (settings : ScanSettings) (is : List Instruction) (code : String) (k : Nat) :
    Decidable (FirstDelivery settings is code k) :=
  inferInstanceAs (Decidable (_ ∧ ∀ j < k, _))

variable {settings : ScanSettings} {code : String}

/-- What is delivered at a position is what the scene there delivers. -/
theorem mem_delivers_iff {is : List Instruction} {k : Nat} {i : Instruction}
    (hk : is[k]? = some i) :
    code ∈ (Scene.start.after settings (is.take k)).delivers i ↔
      DeliversAt settings is code k := by
  have hlt : k < is.length := (List.getElem?_eq_some_iff.mp hk).1
  unfold DeliversAt
  rw [hk]
  cases i with
  | line c =>
    simp only [Scene.delivers, List.mem_singleton, Option.some.injEq, Instruction.line.injEq,
      reduceCtorEq, false_and, and_false, or_false]
    exact eq_comm
  | showOptions =>
    simp only [Scene.delivers, Scene.mem_pending_after_iff, List.getElem?_take, Option.some.injEq,
      reduceCtorEq, false_or, true_and]
    constructor
    · rintro ⟨hs, j, hj, hm⟩
      have hjk : j < k := Decidable.by_contra fun h => by simp [h] at hj
      refine ⟨hs, j, hjk, by simpa [hjk] using hj, fun m hmk hjm => ?_⟩
      simpa [hmk] using hm m hjm
    · rintro ⟨hs, j, hjk, hj, hm⟩
      refine ⟨hs, j, by simpa [hjk] using hj, fun m hjm => ?_⟩
      split
      · next hmk => exact hm m hmk hjm
      · exact Option.some_ne_none _ ∘ Eq.symm
  | option c => simp [Scene.delivers]
  | command text => simp [Scene.delivers]
  | other opcode => simp [Scene.delivers]

/-- A line that is delivered somewhere is delivered somewhere first. -/
theorem exists_firstDelivery {is : List Instruction} {k : Nat} (h : DeliversAt settings is code k) :
    ∃ j, FirstDelivery settings is code j := by
  classical
  exact ⟨Nat.find ⟨k, h⟩, Nat.find_spec ⟨k, h⟩, fun j hj => Nat.find_min ⟨k, h⟩ hj⟩

end Scan

/-! ## 3. The first delivery in a stream -/

namespace Scene

variable {settings : ScanSettings} {textOf : String → String} {code : String}

theorem find?_emissions (scene : Scene) (node : String) (i : Instruction) :
    ((scene.emissions settings textOf node i).find? fun e => e.code = code) =
      if code ∈ scene.delivers i then
        some ⟨code, textOf code, (scene.advance settings i).speaker, node⟩
      else none := by
  split
  · next h =>
    have hs : ((scene.emissions settings textOf node i).find? fun e => e.code = code).isSome := by
      rw [List.find?_isSome]
      exact ⟨⟨code, textOf code, _, node⟩, mem_emissions_iff.mpr ⟨h, rfl⟩, by simp⟩
    obtain ⟨e, he⟩ := Option.isSome_iff_exists.mp hs
    have hc : e.code = code := by simpa using List.find?_some he
    have ho := (mem_emissions_iff.mp (List.mem_of_find?_eq_some he)).2
    rw [he, ← hc, ← ho]
  · next h =>
    rw [List.find?_eq_none]
    intro e he
    have hc := (mem_emissions_iff.mp he).1
    simp only [decide_eq_true_eq]
    rintro rfl
    exact h hc

theorem mem_deliveries_iff {scene : Scene} {stream : List (String × Instruction)} {e : Emission} :
    e ∈ scene.deliveries settings textOf stream ↔
      ∃ k s, stream[k]? = some s ∧
        e ∈ (scene.after settings ((stream.map Prod.snd).take k)).emissions settings textOf
          s.1 s.2 := by
  induction stream generalizing scene with
  | nil => simp [deliveries]
  | cons s stream ih =>
    rw [deliveries, List.mem_append, ih]
    constructor
    · rintro (h | ⟨k, s', hk, h⟩)
      · exact ⟨0, s, rfl, h⟩
      · exact ⟨k + 1, s', hk, h⟩
    · rintro ⟨k, s', hk, h⟩
      cases k with
      | zero =>
        cases hk
        exact Or.inl h
      | succ k => exact Or.inr ⟨k, s', hk, h⟩

theorem find?_deliveries : ∀ {k : Nat} {stream : List (String × Instruction)} {scene : Scene}
    {s : String × Instruction}, stream[k]? = some s →
    code ∈ (scene.after settings ((stream.map Prod.snd).take k)).delivers s.2 →
    (∀ j < k, ∀ s', stream[j]? = some s' →
      code ∉ (scene.after settings ((stream.map Prod.snd).take j)).delivers s'.2) →
    ((scene.deliveries settings textOf stream).find? fun e => e.code = code) =
      some ⟨code, textOf code,
        (scene.after settings ((stream.map Prod.snd).take (k + 1))).speaker, s.1⟩
  | _, [], _, _, hk, _, _ => by simp at hk
  | 0, s' :: stream, scene, s, hk, hc, _ => by
    obtain rfl : s' = s := by simpa using hk
    have h0 : code ∈ scene.delivers s'.2 := hc
    rw [deliveries, List.find?_append, find?_emissions, if_pos h0]
    rfl
  | k + 1, s' :: stream, scene, s, hk, hc, hfirst => by
    have h0 : code ∉ scene.delivers s'.2 := hfirst 0 (Nat.succ_pos k) s' rfl
    rw [deliveries, List.find?_append, find?_emissions, if_neg h0, Option.none_or]
    exact find?_deliveries hk hc
      fun j hj => hfirst (j + 1) (Nat.succ_lt_succ hj)

end Scene

/-! ## 4. The first delivery in a program -/

namespace Scan

variable {p : Program} {file : FilePath} {settings : ScanSettings} {ledger : Ledger}
  {code : String}

theorem getElem?_instructions {k : Nat} {s : String × Instruction} (hk : p.stream[k]? = some s) :
    p.instructions[k]? = some s.2 := by
  rw [← p.map_snd_stream, List.getElem?_map, hk]
  rfl

theorem exists_stream_of_deliversAt {k : Nat} (h : DeliversAt settings p.instructions code k) :
    ∃ s, p.stream[k]? = some s := by
  have hi : ∃ i, p.instructions[k]? = some i := by
    rcases h with h | ⟨-, h, -⟩
    · exact ⟨_, h⟩
    · exact ⟨_, h⟩
  obtain ⟨i, hi⟩ := hi
  rw [← p.map_snd_stream, List.getElem?_map] at hi
  obtain ⟨s, hs, -⟩ := Option.map_eq_some_iff.mp hi
  exact ⟨s, hs⟩

/-- What delivers a line is the line itself or shows options. -/
theorem instruction_of_deliversAt {k : Nat} {s : String × Instruction}
    (hd : DeliversAt settings p.instructions code k) (hk : p.stream[k]? = some s) :
    s.2 = .line code ∨ s.2 = .showOptions := by
  unfold DeliversAt at hd
  rw [getElem?_instructions hk] at hd
  rcases hd with h | ⟨-, h, -⟩
  · exact Or.inl (Option.some.inj h)
  · exact Or.inr (Option.some.inj h)

/-- The observation of a line comes from where it is delivered first. -/
theorem get?_of_firstDelivery (h : (p.scan file settings).outcome = .ok ledger) {k : Nat}
    (hk : FirstDelivery settings p.instructions code k) :
    ∃ s, p.stream[k]? = some s ∧
      ledger.observations.get? code =
        some ⟨p.textOf code,
          (Scene.start.after settings (p.instructions.take (k + 1))).speaker, s.1⟩ := by
  obtain ⟨s, hs⟩ := exists_stream_of_deliversAt hk.1
  have hc := (mem_delivers_iff (getElem?_instructions hs)).mpr hk.1
  refine ⟨s, hs, ?_⟩
  rw [get?_of_scan h, Program.deliveries, Scene.find?_deliveries hs, p.map_snd_stream]
  · rfl
  · rw [p.map_snd_stream]
    exact hc
  · intro j hj s' hs' hm
    rw [p.map_snd_stream] at hm
    exact hk.2 j hj ((mem_delivers_iff (getElem?_instructions hs')).mp hm)

/-- The observed lines are those that are delivered at some position. -/
theorem mem_keys_iff_firstDelivery (h : (p.scan file settings).outcome = .ok ledger) :
    code ∈ ledger.observations.keys ↔ ∃ k, FirstDelivery settings p.instructions code k := by
  constructor
  · intro hm
    obtain ⟨o, ho⟩ := Table.mem_keys_iff.mp hm
    rw [get?_of_scan h] at ho
    obtain ⟨e, he, -⟩ := Option.map_eq_some_iff.mp ho
    have hc : e.code = code := by simpa using List.find?_some he
    obtain ⟨k, s, hs, hem⟩ := Scene.mem_deliveries_iff.mp (List.mem_of_find?_eq_some he)
    have hd := (Scene.mem_emissions_iff.mp hem).1
    rw [p.map_snd_stream, hc] at hd
    exact exists_firstDelivery ((mem_delivers_iff (getElem?_instructions hs)).mp hd)
  · rintro ⟨k, hk⟩
    obtain ⟨s, -, ho⟩ := get?_of_firstDelivery h hk
    exact Table.mem_keys_iff.mpr ⟨_, ho⟩

end Scan

end DialogueExport
