import DialogueExport.Outcome
import DialogueExport.Scan

/-!
# The deliveries of a program

What a stream of instructions delivers depends on the scene alone, never on what the ledger holds:
`Scene.deliveries` lists it without a ledger.  A scan enters exactly this list, in this order
(`outcome_scan`), and whatever it does about repeats, a scan that comes to its end has added them
all (`eq_addAll_of_scan`).  Of every line the ledger keeps the first delivery
(`get?_addAll`).
-/

namespace DialogueExport

/-! ## 1. Scene and deliveries along a stream -/

namespace Scene

/-- The scene after instructions. -/
def after (settings : ScanSettings) (scene : Scene) (is : List Instruction) : Scene :=
  is.foldl (advance settings) scene

@[simp] theorem after_nil (settings : ScanSettings) (scene : Scene) :
    scene.after settings [] = scene := rfl

@[simp] theorem after_cons (settings : ScanSettings) (scene : Scene) (i : Instruction)
    (is : List Instruction) :
    scene.after settings (i :: is) = (scene.advance settings i).after settings is := rfl

@[simp] theorem after_concat (settings : ScanSettings) (scene : Scene) (is : List Instruction)
    (i : Instruction) :
    scene.after settings (is ++ [i]) = (scene.after settings is).advance settings i := by
  simp [after]

/-- What a stream of instructions delivers, in order. -/
def deliveries (settings : ScanSettings) (textOf : String → String) :
    Scene → List (String × Instruction) → List Emission
  | _, [] => []
  | scene, (node, i) :: stream =>
    scene.emissions settings textOf node i ++
      deliveries settings textOf (scene.advance settings i) stream

/-- An emission says nothing about its line but where and by whom it was delivered. -/
theorem mem_emissions_iff {settings : ScanSettings} {textOf : String → String} {scene : Scene}
    {node : String} {i : Instruction} {e : Emission} :
    e ∈ scene.emissions settings textOf node i ↔
      e.code ∈ scene.delivers i ∧
        e.observation = ⟨textOf e.code, (scene.advance settings i).speaker, node⟩ := by
  rw [emissions, List.mem_map]
  constructor
  · rintro ⟨code, hc, rfl⟩
    exact ⟨hc, rfl⟩
  · rintro ⟨hc, ho⟩
    exact ⟨e.code, hc, by rw [← ho]⟩

end Scene

namespace Program

/-- The instructions of all nodes, in order. -/
def instructions (p : Program) : List Instruction := p.nodes.values.flatMap Node.instructions

theorem map_snd_stream (p : Program) : p.stream.map Prod.snd = p.instructions := by
  simp [stream, instructions, List.map_flatMap, Function.comp_def]

/-- What a program delivers, in order. -/
def deliveries (p : Program) (settings : ScanSettings) : List Emission :=
  Scene.start.deliveries settings p.textOf p.stream

end Program

/-! ## 2. The scan enters the deliveries -/

namespace Scan

variable {p : Program} {file : FilePath} {settings : ScanSettings}

theorem outcome_step (st : State) (node : String) (i : Instruction) :
    (step p file settings st node i).outcome =
      ((st.scene.emissions settings p.textOf node i).foldlM (enter file settings.onRepeat)
        st.ledger).outcome.map (State.mk (st.scene.advance settings i)) := by
  simp only [step, Logged.outcome_bind, Logged.outcome_report, Logged.outcome_pure]
  cases ((st.scene.emissions settings p.textOf node i).foldlM (enter file settings.onRepeat)
    st.ledger).outcome with
  | error e => rfl
  | ok ledger => rfl

theorem outcome_steps (st : State) (stream : List (String × Instruction)) :
    (steps p file settings st stream).outcome =
      ((st.scene.deliveries settings p.textOf stream).foldlM (enter file settings.onRepeat)
        st.ledger).outcome.map (State.mk (st.scene.after settings (stream.map Prod.snd))) := by
  induction stream generalizing st with
  | nil => rfl
  | cons s stream ih =>
    obtain ⟨node, i⟩ := s
    rw [steps, List.foldlM_cons, Logged.outcome_bind, outcome_step, Scene.deliveries,
      List.foldlM_append, Logged.outcome_bind]
    cases ((st.scene.emissions settings p.textOf node i).foldlM (enter file settings.onRepeat)
      st.ledger).outcome with
    | error e => rfl
    | ok ledger => exact ih ⟨st.scene.advance settings i, ledger⟩

/-- A scan ends as entering the deliveries of the program does. -/
theorem outcome_scan :
    (p.scan file settings).outcome =
      ((p.deliveries settings).foldlM (enter file settings.onRepeat) Ledger.empty).outcome := by
  rw [Program.scan, Logged.outcome_bind, outcome_steps]
  change Except.map _ ((p.deliveries settings).foldlM (enter file settings.onRepeat)
    Ledger.empty).outcome >>= _ = _
  cases ((p.deliveries settings).foldlM (enter file settings.onRepeat) Ledger.empty).outcome with
  | error e => rfl
  | ok ledger => rfl

theorem eq_add_of_enter {onRepeat : OnRepeat} {ledger ledger' : Ledger} {e : Emission}
    (h : (enter file onRepeat ledger e).outcome = .ok ledger') : ledger' = ledger.add e := by
  unfold enter at h
  split at h
  · cases onRepeat with
    | keepFirst => exact (Except.ok.inj h).symm
    | abort => cases h
  · exact (Except.ok.inj h).symm

theorem eq_addAll_of_enter {onRepeat : OnRepeat} {ledger ledger' : Ledger} {es : List Emission}
    (h : (es.foldlM (enter file onRepeat) ledger).outcome = .ok ledger') :
    ledger' = ledger.addAll es := by
  induction es generalizing ledger with
  | nil => exact (Except.ok.inj h).symm
  | cons e es ih =>
    rw [List.foldlM_cons, Logged.outcome_bind, bind_eq_ok] at h
    obtain ⟨l, hl, h⟩ := h
    rw [ih h, eq_add_of_enter hl]
    rfl

/-- A scan that comes to its end has entered every delivery. -/
theorem eq_addAll_of_scan {ledger : Ledger} (h : (p.scan file settings).outcome = .ok ledger) :
    ledger = Ledger.empty.addAll (p.deliveries settings) := by
  rw [outcome_scan] at h
  exact eq_addAll_of_enter h

theorem outcome_foldlM_enter_keepFirst (es : List Emission) (ledger : Ledger) :
    (es.foldlM (enter file .keepFirst) ledger).outcome = .ok (ledger.addAll es) := by
  induction es generalizing ledger with
  | nil => rfl
  | cons e es ih =>
    have he : (enter file .keepFirst ledger e).outcome = .ok (ledger.add e) := by
      unfold enter
      split <;> rfl
    rw [List.foldlM_cons, Logged.outcome_bind, he]
    exact ih (ledger.add e)

/-- If repeats are allowed, a scan always comes to its end. -/
theorem outcome_scan_of_keepFirst (hk : settings.onRepeat = .keepFirst) :
    (p.scan file settings).outcome = .ok (Ledger.empty.addAll (p.deliveries settings)) := by
  rw [outcome_scan, hk]
  exact outcome_foldlM_enter_keepFirst _ _

end Scan

/-! ## 3. The first delivery of a line -/

namespace Ledger

/-- What a ledger has is not changed by a delivery; what it has not is the delivery's. -/
theorem get?_add (l : Ledger) (e : Emission) (code : String) :
    (l.add e).observations.get? code =
      (l.observations.get? code).or (if e.code = code then some e.observation else none) := by
  by_cases hm : e.code ∈ l.observations.keys
  · rw [add_of_mem hm]
    by_cases hc : e.code = code
    · subst hc
      obtain ⟨o, ho⟩ := Table.mem_keys_iff.mp hm
      simp [ho]
    · simp [hc]
  · rw [add_of_not_mem hm]
    by_cases hc : e.code = code
    · subst hc
      simp [Table.get?_eq_none_iff.mpr hm]
    · simp [Table.get?_insert_of_ne _ _ (Ne.symm hc), hc]

theorem get?_addAll (l : Ledger) (es : List Emission) (code : String) :
    (l.addAll es).observations.get? code =
      (l.observations.get? code).or
        ((es.find? fun e => e.code = code).map Emission.observation) := by
  induction es generalizing l with
  | nil => simp [addAll]
  | cons e es ih =>
    rw [addAll, List.foldl_cons]
    change ((l.add e).addAll es).observations.get? code = _
    rw [ih, get?_add, Option.or_assoc, List.find?_cons]
    by_cases hc : e.code = code
    · simp [hc]
    · simp [hc]

end Ledger

/-- The observation of a line is its first delivery. -/
theorem Scan.get?_of_scan {p : Program} {file : FilePath} {settings : ScanSettings}
    {ledger : Ledger} (h : (p.scan file settings).outcome = .ok ledger) (code : String) :
    ledger.observations.get? code =
      ((p.deliveries settings).find? fun e => e.code = code).map Emission.observation := by
  rw [Scan.eq_addAll_of_scan h, Ledger.get?_addAll]
  simp [Ledger.empty]

/-! ## 4. Where a scan stands on its way -/

namespace Scan

variable {p : Program} {file : FilePath} {settings : ScanSettings} {n : Nat} {st : State}

/-- The scan has handled the first `n` instructions of the program and stands at `st`. -/
def Reaches (p : Program) (file : FilePath) (settings : ScanSettings) (n : Nat) (st : State) :
    Prop :=
  (steps p file settings start (p.stream.take n)).outcome = .ok st

/-- Where a scan stands is decided by the instructions that it has handled. -/
theorem Reaches.eq (h : Reaches p file settings n st) :
    st = ⟨Scene.start.after settings (p.instructions.take n),
      Ledger.empty.addAll (Scene.start.deliveries settings p.textOf (p.stream.take n))⟩ := by
  rw [Reaches, outcome_steps, map_eq_ok] at h
  obtain ⟨ledger, hl, rfl⟩ := h
  rw [eq_addAll_of_enter hl, List.map_take, p.map_snd_stream]
  rfl

/-- If repeats are allowed, a scan handles every instruction. -/
theorem exists_reaches (hk : settings.onRepeat = .keepFirst) (n : Nat) :
    ∃ st, Reaches p file settings n st := by
  simp only [Reaches, outcome_steps, hk, outcome_foldlM_enter_keepFirst]
  exact ⟨_, rfl⟩

end Scan

end DialogueExport
