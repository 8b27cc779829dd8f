import DialogueExport.Proofs.Scan.Repeats

/-!
# What a scan warns of

A scan warns of lines without a text where they are named, and of lines that come again where they are
delivered.  `warningsAt` lists the warnings at a position of a program without a scan: which lines were
delivered before is `emittedCodes` of the instructions in front, and the queue is what `queued` finds
there.  A scan that allows repeats warns of exactly this, position by position (`warnings_steps`).  The
induction is on the instructions from behind, as in `pending_after`: the last instruction meets the ledger
and the queue that those before it have left.

A warning about a line that comes again is given exactly when its code is put down as a repeat
(`repeats_of_step`), so such warnings and the repeats of a ledger are the same list (`repeats_of_scan`).
-/

namespace DialogueExport

/-! ## 1. Warnings of a computation -/

namespace Event

/-- Whether an event is about a line that comes again. -/
def isRepeat : Event → Bool
  | repeated _ _ => true
  | _ => false

/-- That a line comes again is always a warning. -/
theorem filter_isRepeat_eq (events : List Event) :
    events.filter isRepeat = (events.filter fun ev => ev.level = .warn).filter isRepeat := by
  rw [List.filter_filter]
  refine List.filter_congr fun ev _ => ?_
  cases ev <;> rfl

end Event

namespace Logged

variable {ε α β : Type} {x : Logged ε α} {f : α → Logged ε β}

/-- The warnings among the events. -/
def warnings (x : Logged ε α) : List Event := x.events.filter fun ev => ev.level = .warn

@[simp] theorem warnings_pure (a : α) : (pure a : Logged ε α).warnings = [] := rfl

theorem warnings_bind_of_ok {a : α} (h : x.outcome = .ok a) :
    (x >>= f).warnings = x.warnings ++ (f a).warnings := by
  simp only [warnings, events_bind, h, List.filter_append]

/-- A failure has the last word. -/
theorem warnings_bind_of_error {e : ε} (h : x.outcome = .error e) :
    (x >>= f).warnings = x.warnings := by
  simp only [warnings, events_bind, h, List.append_nil]

theorem warnings_report_bind (events : List Event) (f : Unit → Logged ε β) :
    (report events >>= f).warnings =
      (events.filter fun ev => ev.level = .warn) ++ (f ()).warnings := by
  simp only [warnings, events_report_bind, List.filter_append]

/-- If every step puts down the events of a kind that it reports, a run puts down all of them. -/
theorem filter_events_foldlM {step : α → β → Logged ε α} {kind : Event → Bool}
    (kept : α → List Event)
    (hstep : ∀ a b a', (step a b).outcome = .ok a' →
      kept a' = kept a ++ (step a b).events.filter kind)
    {a a' : α} {bs : List β} (h : (bs.foldlM step a).outcome = .ok a') :
    kept a' = kept a ++ (bs.foldlM step a).events.filter kind := by
  induction bs generalizing a with
  | nil =>
    obtain rfl := Except.ok.inj h
    exact (List.append_nil _).symm
  | cons b bs ih =>
    rw [List.foldlM_cons, outcome_bind, bind_eq_ok] at h
    obtain ⟨mid, hmid, h⟩ := h
    rw [ih h, hstep a b mid hmid, List.foldlM_cons, events_bind, hmid, List.filter_append,
      List.append_assoc]

end Logged

namespace Scan

/-! ## 2. The warnings at a position -/

/-- The warning about a line without text. -/
def noText (p : Program) (file : FilePath) (code : String) : List Event :=
  if code ∈ p.strings.keys then [] else [.noText file code]

/-- The codes that were seen before or come again among themselves, in order. -/
def again (seen : List String) : List String → List String
  | [] => []
  | code :: codes => (if code ∈ seen then [code] else []) ++ again (code :: seen) codes

/-- The warnings at position `k`. -/
def warningsAt (p : Program) (file : FilePath) (settings : ScanSettings) (is : List Instruction)
    (k : Nat) : List Event :=
  let before := emittedCodes settings (is.take k)
  match is[k]? with
  | some (.line code) =>
    noText p file code ++ if code ∈ before then [.repeated file code] else []
  | some (.option code) => if settings.captureOptions then noText p file code else []
  | some .showOptions =>
    if settings.captureOptions then (again before (queued (is.take k))).map (.repeated file) else []
  | _ => []

variable {p : Program} {file : FilePath} {settings : ScanSettings}

theorem missing_eq (code : String) : missing p file code = noText p file code := by
  rw [missing, noText, Table.contains]
  simp only [decide_eq_true_eq]

/-- Only which codes were seen counts, not how often or in which order. -/
theorem again_congr {seen seen' : List String} (h : ∀ code, code ∈ seen ↔ code ∈ seen')
    (codes : List String) : again seen codes = again seen' codes := by
  induction codes generalizing seen seen' with
  | nil => rfl
  | cons code codes ih =>
    have hnext : ∀ c, c ∈ code :: seen ↔ c ∈ code :: seen' := by
      intro c
      rw [List.mem_cons, List.mem_cons, h]
    simp only [again, h, ih hnext]

/-- The warnings at a position depend on nothing behind it. -/
theorem warningsAt_concat_of_lt {is : List Instruction} {k : Nat} (hk : k < is.length)
    (i : Instruction) :
    warningsAt p file settings (is ++ [i]) k = warningsAt p file settings is k := by
  unfold warningsAt
  rw [List.getElem?_append_left hk, List.take_append_of_le_length (Nat.le_of_lt hk)]

/-! ## 3. The warnings of a step -/

/-- Entering deliveries warns of those whose lines are known already. -/
theorem warnings_foldlM_enter (es : List Emission) (ledger : Ledger) :
    (es.foldlM (enter file .keepFirst) ledger).warnings =
      (again ledger.observations.keys (es.map Emission.code)).map (.repeated file) := by
  induction es generalizing ledger with
  | nil => rfl
  | cons e es ih =>
    have hstep : (enter file .keepFirst ledger e).outcome = .ok (ledger.add e) := by
      unfold enter
      split <;> rfl
    have hseen : ∀ code, code ∈ (ledger.add e).observations.keys ↔
        code ∈ e.code :: ledger.observations.keys := by
      intro code
      rw [List.mem_cons, ← Table.contains_iff, ← Table.contains_iff]
      exact has_add_iff
    rw [List.foldlM_cons, Logged.warnings_bind_of_ok hstep, ih, again_congr hseen, List.map_cons,
      again, List.map_append]
    congr 1
    by_cases he : e.code ∈ ledger.observations.keys
    · have hhas : ledger.has e.code = true := Table.contains_iff.mpr he
      rw [if_pos he, enter, if_pos hhas]
      rfl
    · have hhas : ¬ ledger.has e.code = true := fun h => he (Table.contains_iff.mp h)
      rw [if_neg he, enter, if_neg hhas]
      rfl

/-- A step warns of a text that is missing and then of lines that come again. -/
theorem warnings_step (hk : settings.onRepeat = .keepFirst) (st : State) (node : String)
    (i : Instruction) :
    (step p file settings st node i).warnings =
      ((announce p file settings i).filter fun ev => ev.level = .warn) ++
        (again st.ledger.observations.keys (st.scene.delivers i)).map (.repeated file) := by
  have hconclude : ∀ scene : Scene,
      ((conclude p scene i).filter fun ev => ev.level = .warn) = [] := by
    intro scene
    cases i <;> rfl
  rw [step, hk, Logged.warnings_report_bind,
    Logged.warnings_bind_of_ok (outcome_foldlM_enter_keepFirst _ _), Logged.warnings_report_bind,
    hconclude, warnings_foldlM_enter, Scene.map_code_emissions]
  simp only [Logged.warnings_pure, List.append_nil]

theorem filter_announce (i : Instruction) :
    ((announce p file settings i).filter fun ev => ev.level = .warn) =
      match i with
      | .line code => noText p file code
      | .option code => if settings.captureOptions then noText p file code else []
      | _ => [] := by
  have hmissing : ∀ code,
      ((missing p file code).filter fun ev => ev.level = .warn) = noText p file code := by
    intro code
    rw [missing_eq, noText]
    split <;> rfl
  cases i with
  | line code => exact hmissing code
  | option code =>
    simp only [announce]
    split
    · exact hmissing code
    · rfl
  | command text =>
    simp only [announce]
    cases Direction.ofText text <;> rfl
  | showOptions | other => rfl

/-- An instruction behind others warns of what those have left. -/
theorem warnings_step_after (hk : settings.onRepeat = .keepFirst)
    (stream : List (String × Instruction)) (node : String) (i : Instruction) :
    (step p file settings ⟨Scene.start.after settings (stream.map Prod.snd),
        Ledger.empty.addAll (Scene.start.deliveries settings p.textOf stream)⟩ node i).warnings =
      warningsAt p file settings (stream.map Prod.snd ++ [i]) stream.length := by
  have hseen : ∀ code,
      code ∈ (Ledger.empty.addAll
        (Scene.start.deliveries settings p.textOf stream)).observations.keys ↔
      code ∈ emittedCodes settings (stream.map Prod.snd) := by
    intro code
    rw [Ledger.mem_keys_addAll, Scene.map_code_deliveries]
  have hlength : stream.length = (stream.map Prod.snd).length := by rw [List.length_map]
  rw [warnings_step hk, filter_announce, again_congr hseen, hlength, warningsAt,
    List.getElem?_concat_length, List.take_left]
  cases i with
  | line code =>
    simp only [Scene.delivers, again]
    split <;> rfl
  | showOptions =>
    simp only [Scene.delivers, Scene.pending_after]
    split <;> rfl
  | option | command | other => simp [Scene.delivers, again]

/-- **What a scan warns of**, position by position. -/
theorem warnings_steps (hk : settings.onRepeat = .keepFirst) (stream : List (String × Instruction)) :
    (steps p file settings start stream).warnings =
      (List.range stream.length).flatMap (warningsAt p file settings (stream.map Prod.snd)) := by
  induction stream using List.reverseRecOn with
  | nil => rfl
  | append_singleton stream s ih =>
    have hstands : (steps p file settings start stream).outcome =
        .ok ⟨Scene.start.after settings (stream.map Prod.snd),
          Ledger.empty.addAll (Scene.start.deliveries settings p.textOf stream)⟩ := by
      rw [outcome_steps, hk, outcome_foldlM_enter_keepFirst]
      rfl
    have hsteps : steps p file settings start (stream ++ [s]) =
        steps p file settings start stream >>= fun st => step p file settings st s.1 s.2 := by
      rw [steps, steps, List.foldlM_append]
      simp only [List.foldlM_cons, List.foldlM_nil, bind_pure]
    rw [hsteps, Logged.warnings_bind_of_ok hstands, ih, warnings_step_after hk, List.length_append,
      List.length_singleton, List.range_succ, List.flatMap_append, List.flatMap_singleton,
      List.map_append, List.map_singleton]
    congr 1
    refine List.flatMap_congr fun k hlt => (warningsAt_concat_of_lt ?_ s.2).symm
    rw [List.length_map]
    exact List.mem_range.mp hlt

theorem warnings_scan (hk : settings.onRepeat = .keepFirst) :
    (p.scan file settings).warnings =
      (List.range p.instructions.length).flatMap (warningsAt p file settings p.instructions) := by
  have hscan : (p.scan file settings).warnings =
      (steps p file settings start p.stream).warnings := by
    rw [Program.scan]
    cases hsteps : (steps p file settings start p.stream).outcome with
    | ok st => rw [Logged.warnings_bind_of_ok hsteps, Logged.warnings_pure, List.append_nil]
    | error e => rw [Logged.warnings_bind_of_error hsteps]
  rw [hscan, warnings_steps hk, ← p.map_snd_stream, List.length_map]

/-! ## 4. Warnings and repeats -/

/-- What is put down as a repeat is warned of. -/
theorem repeats_of_enter {onRepeat : OnRepeat} {ledger ledger' : Ledger} {e : Emission}
    (h : (enter file onRepeat ledger e).outcome = .ok ledger') :
    ledger'.repeats.map (Event.repeated file) = ledger.repeats.map (Event.repeated file) ++
      (enter file onRepeat ledger e).events.filter Event.isRepeat := by
  rw [eq_add_of_enter h, Ledger.add]
  unfold enter at h ⊢
  by_cases he : ledger.has e.code = true
  · rw [if_pos he] at h ⊢
    rw [if_pos he, List.map_append]
    cases onRepeat with
    | keepFirst => rfl
    | abort => cases h
  · rw [if_neg he, if_neg he]
    exact (List.append_nil _).symm

theorem repeats_of_foldlM_enter {onRepeat : OnRepeat} {ledger ledger' : Ledger}
    {es : List Emission} (h : (es.foldlM (enter file onRepeat) ledger).outcome = .ok ledger') :
    ledger'.repeats.map (Event.repeated file) = ledger.repeats.map (Event.repeated file) ++
      (es.foldlM (enter file onRepeat) ledger).events.filter Event.isRepeat := by
  refine Logged.filter_events_foldlM (fun l => l.repeats.map (Event.repeated file)) ?_ h
  intro l e l' hl
  exact repeats_of_enter hl

theorem repeats_of_step {st st' : State} {node : String} {i : Instruction}
    (h : (step p file settings st node i).outcome = .ok st') :
    st'.ledger.repeats.map (Event.repeated file) = st.ledger.repeats.map (Event.repeated file) ++
      (step p file settings st node i).events.filter Event.isRepeat := by
  rw [outcome_step, map_eq_ok] at h
  obtain ⟨ledger, hl, rfl⟩ := h
  have htexts : ∀ code, (noText p file code).filter Event.isRepeat = [] := by
    intro code
    unfold noText
    split <;> rfl
  have hannounce : (announce p file settings i).filter Event.isRepeat = [] := by
    rw [Event.filter_isRepeat_eq, filter_announce]
    cases i with
    | line code => exact htexts code
    | option code =>
      dsimp only
      split
      · exact htexts code
      · rfl
    | showOptions | command | other => rfl
  have hconclude : ∀ scene, (conclude p scene i).filter Event.isRepeat = [] := by
    intro scene
    cases i <;> rfl
  rw [repeats_of_foldlM_enter hl, step, Logged.events_report_bind, Logged.events_bind, hl]
  simp only [Logged.events_report_bind, Logged.events_pure, List.filter_append, hannounce,
    hconclude, List.append_nil, List.nil_append]

theorem repeats_of_steps {st st' : State} {stream : List (String × Instruction)}
    (h : (steps p file settings st stream).outcome = .ok st') :
    st'.ledger.repeats.map (Event.repeated file) = st.ledger.repeats.map (Event.repeated file) ++
      (steps p file settings st stream).events.filter Event.isRepeat := by
  refine Logged.filter_events_foldlM (fun st => st.ledger.repeats.map (Event.repeated file)) ?_ h
  intro st s st' hst
  exact repeats_of_step hst

/-- The repeats of a scan are the lines that it has warned of, in this order. -/
theorem repeats_of_scan {ledger : Ledger} (h : (p.scan file settings).outcome = .ok ledger) :
    (p.scan file settings).events.filter Event.isRepeat =
      ledger.repeats.map (Event.repeated file) := by
  rw [Program.scan, Logged.outcome_bind, bind_eq_ok] at h
  obtain ⟨st, hst, h⟩ := h
  obtain rfl := Except.ok.inj h
  rw [repeats_of_steps hst, Program.scan, Logged.events_bind, hst]
  simp [start, Ledger.empty]

end Scan

end DialogueExport
