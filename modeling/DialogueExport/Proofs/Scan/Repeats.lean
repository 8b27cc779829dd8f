import DialogueExport.Proofs.Scan.Speaker
import DialogueExport.Proofs.Scan.Emitted

/-!
# The first delivery counts, and no other is lost

What a ledger keeps can be said of the deliveries alone.  A delivery is the first of its line if
none before it has that line; the observations are these deliveries, and the repeats are the others
(`keeps_addAll`).  The induction is on the deliveries from behind, as only the last one has to be
compared with all that came before.

Nothing that a ledger has is taken out or changed: each step of a scan goes on at the ends of its two
lists (`extends_of_step`), so wherever a scan is stopped, it has the front of what it would have had
(`extends_of_reaches`).

Where repeats are not allowed, the scan fails at the first of them.  The instructions deliver the same
under both policies (`deliveries_onRepeat`), and the first repeat that a ledger keeps is the first
line that comes again (`head?_repeats_addAll`), so the repeats that are kept under the one policy say
how the scan ends under the other.

Main statements: `keeps_of_scan`, `policies_agree`.
-/

namespace DialogueExport

namespace Ledger

/-! ## 1. First deliveries and others -/

/-- The deliveries that stand in a relation to those before them, in order. -/
def picked (P : List Emission → Emission → Bool) (es : List Emission) : List Emission :=
  (es.zipIdx.filter fun e => P (es.take e.2) e.1).map Prod.fst

/-- The deliveries whose lines were not delivered before. -/
def firsts : List Emission → List Emission :=
  picked fun before e => e.code ∉ before.map Emission.code

/-- The deliveries whose lines were delivered before. -/
def others : List Emission → List Emission :=
  picked fun before e => e.code ∈ before.map Emission.code

theorem picked_concat (P : List Emission → Emission → Bool) (es : List Emission) (e : Emission) :
    picked P (es ++ [e]) = picked P es ++ if P es e then [e] else [] := by
  have hbefore : ∀ x ∈ es.zipIdx, P ((es ++ [e]).take x.2) x.1 = P (es.take x.2) x.1 := by
    intro x hx
    rw [List.take_append_of_le_length (Nat.le_of_lt (List.snd_lt_of_mem_zipIdx hx))]
  rw [picked, List.zipIdx_append, List.filter_append, List.map_append, List.filter_congr hbefore,
    List.zipIdx_singleton, Nat.zero_add]
  congr 1
  by_cases h : P es e = true
  · simp [h]
  · simp [h]

theorem firsts_concat (es : List Emission) (e : Emission) :
    firsts (es ++ [e]) =
      if e.code ∈ es.map Emission.code then firsts es else firsts es ++ [e] := by
  rw [firsts, picked_concat]
  by_cases h : e.code ∈ es.map Emission.code
  · rw [if_neg (by simpa using h), if_pos h, List.append_nil]
  · rw [if_pos (by simpa using h), if_neg h]

theorem others_concat (es : List Emission) (e : Emission) :
    others (es ++ [e]) =
      if e.code ∈ es.map Emission.code then others es ++ [e] else others es := by
  rw [others, picked_concat]
  by_cases h : e.code ∈ es.map Emission.code
  · rw [if_pos (by simpa using h), if_pos h]
  · rw [if_neg (by simpa using h), if_neg h, List.append_nil]

/-- Deliveries are picked in their order. -/
theorem picked_sublist (P : List Emission → Emission → Bool) (es : List Emission) :
    (picked P es).Sublist es := by
  have h : ((es.zipIdx.filter fun e => P (es.take e.2) e.1).map Prod.fst).Sublist
      (es.zipIdx.map Prod.fst) := List.filter_sublist.map Prod.fst
  rwa [List.zipIdx_map_fst] at h

/-! ## 2. What a ledger keeps -/

/-- The ledger keeps the first delivery of every line and the lines of all other deliveries. -/
structure Keeps (l : Ledger) (es : List Emission) : Prop where
  /-- The observations are the first deliveries, as they were made and in their order. -/
  entries : l.observations.entries = (firsts es).map fun e => (e.code, e.observation)
  /-- The repeats are the lines of the other deliveries, in their order. -/
  repeats : l.repeats = (others es).map Emission.code
  /-- Exactly the lines that are delivered are observed. -/
  lines : ∀ code, code ∈ l.observations.keys ↔ code ∈ es.map Emission.code
  /-- Only a line that is observed can come again. -/
  known : ∀ code ∈ l.repeats, code ∈ l.observations.keys
  /-- Every delivery is an observation or a repeat. -/
  size : l.observations.size + l.repeats.length = es.length

theorem addAll_concat (l : Ledger) (es : List Emission) (e : Emission) :
    l.addAll (es ++ [e]) = (l.addAll es).add e := by
  rw [addAll, addAll, List.foldl_append, List.foldl_cons, List.foldl_nil]

theorem mem_keys_addAll {es : List Emission} {code : String} :
    code ∈ (empty.addAll es).observations.keys ↔ code ∈ es.map Emission.code := by
  rw [Table.mem_keys_iff]
  simp only [get?_addAll, empty, Table.get?_empty, Option.none_or, Option.map_eq_some_iff,
    List.mem_map]
  constructor
  · rintro ⟨o, e, he, rfl⟩
    exact ⟨e, List.mem_of_find?_eq_some he, by simpa using List.find?_some he⟩
  · rintro ⟨e, he, rfl⟩
    obtain ⟨e', he'⟩ := Option.isSome_iff_exists.mp
      (List.find?_isSome (p := fun x => decide (x.code = e.code)).mpr ⟨e, he, by simp⟩)
    exact ⟨e'.observation, e', he', rfl⟩

theorem entries_and_repeats_addAll (es : List Emission) :
    (empty.addAll es).observations.entries = (firsts es).map (fun e => (e.code, e.observation)) ∧
      (empty.addAll es).repeats = (others es).map Emission.code := by
  induction es using List.reverseRecOn with
  | nil => exact ⟨rfl, rfl⟩
  | append_singleton es e ih =>
    obtain ⟨hentries, hrepeats⟩ := ih
    rw [addAll_concat, firsts_concat, others_concat]
    by_cases hm : e.code ∈ es.map Emission.code
    · rw [add_of_mem (mem_keys_addAll.mpr hm), if_pos hm, if_pos hm, hrepeats, List.map_append,
        List.map_singleton]
      exact ⟨hentries, rfl⟩
    · have hkeys : e.code ∉ (empty.addAll es).observations.keys := fun h =>
        hm (mem_keys_addAll.mp h)
      rw [add_of_not_mem hkeys, if_neg hm, if_neg hm, Table.entries_insert_of_not_mem _ hkeys,
        hentries, List.map_append, List.map_singleton]
      exact ⟨rfl, hrepeats⟩

/-- **What a ledger keeps** of deliveries in a row. -/
theorem keeps_addAll (es : List Emission) : (empty.addAll es).Keeps es := by
  obtain ⟨hentries, hrepeats⟩ := entries_and_repeats_addAll es
  refine ⟨hentries, hrepeats, fun code => mem_keys_addAll, fun code hcode => ?_, ?_⟩
  · rw [hrepeats] at hcode
    exact mem_keys_addAll.mpr (((picked_sublist _ es).map Emission.code).subset hcode)
  · rw [size_addAll]
    exact Nat.zero_add _

/-! ## 3. A ledger only grows -/

/-- What the one ledger has, the other has in front of what else it has. -/
structure Extends (l l' : Ledger) : Prop where
  observations : l.observations.entries <+: l'.observations.entries
  repeats : l.repeats <+: l'.repeats

theorem Extends.refl (l : Ledger) : l.Extends l := ⟨List.prefix_rfl, List.prefix_rfl⟩

theorem Extends.trans {l l' l'' : Ledger} (h : l.Extends l') (h' : l'.Extends l'') : l.Extends l'' :=
  ⟨h.observations.trans h'.observations, h.repeats.trans h'.repeats⟩

theorem extends_add (l : Ledger) (e : Emission) : l.Extends (l.add e) := by
  by_cases hm : e.code ∈ l.observations.keys
  · rw [add_of_mem hm]
    exact ⟨List.prefix_rfl, List.prefix_append _ _⟩
  · rw [add_of_not_mem hm]
    refine ⟨?_, List.prefix_rfl⟩
    rw [Table.entries_insert_of_not_mem _ hm]
    exact List.prefix_append _ _

theorem extends_addAll (l : Ledger) (es : List Emission) : l.Extends (l.addAll es) := by
  induction es generalizing l with
  | nil => exact .refl l
  | cons e es ih => exact (extends_add l e).trans (ih (l.add e))

end Ledger

namespace Scan

variable {p : Program} {file : FilePath} {settings : ScanSettings} {ledger : Ledger} {n : Nat}
  {st st' : State}

theorem extends_of_step {node : String} {i : Instruction}
    (h : (step p file settings st node i).outcome = .ok st') : st.ledger.Extends st'.ledger := by
  rw [outcome_step, map_eq_ok] at h
  obtain ⟨ledger, hl, rfl⟩ := h
  rw [eq_addAll_of_enter hl]
  exact Ledger.extends_addAll _ _

theorem extends_of_steps {stream : List (String × Instruction)}
    (h : (steps p file settings st stream).outcome = .ok st') : st.ledger.Extends st'.ledger := by
  induction stream generalizing st with
  | nil =>
    obtain rfl := Except.ok.inj h
    exact .refl _
  | cons s stream ih =>
    rw [steps, List.foldlM_cons, Logged.outcome_bind, bind_eq_ok] at h
    obtain ⟨mid, hmid, h⟩ := h
    exact (extends_of_step hmid).trans (ih h)

/-- A scan that is stopped on its way has the front of what it would have had. -/
theorem extends_of_reaches (h : (p.scan file settings).outcome = .ok ledger)
    (hn : Reaches p file settings n st) : st.ledger.Extends ledger := by
  rw [Program.scan, Logged.outcome_bind, bind_eq_ok] at h
  obtain ⟨last, hlast, h⟩ := h
  obtain rfl := Except.ok.inj h
  rw [← List.take_append_drop n p.stream, steps, List.foldlM_append, Logged.outcome_bind,
    bind_eq_ok] at hlast
  obtain ⟨mid, hmid, hlast⟩ := hlast
  obtain rfl : st = mid := Except.ok.inj (hn.symm.trans hmid)
  exact extends_of_steps hlast

/-- **The first delivery counts, and no other is lost.**  Of any deliveries in a row a ledger keeps
the first of every line and the lines of the others.  So does a scan that allows repeats, of all that
the program delivers; wherever it is stopped, it has kept what was delivered so far, and that is the
front of what it keeps in the end. -/
theorem keeps_of_scan (p : Program) (file : FilePath) (hk : settings.onRepeat = .keepFirst) :
    (∀ es, (Ledger.empty.addAll es).Keeps es) ∧
      ∃ ledger, (p.scan file settings).outcome = .ok ledger ∧
        ledger.Keeps (p.deliveries settings) ∧
        ∀ n, ∃ st, Reaches p file settings n st ∧
          st.ledger.Keeps (Scene.start.deliveries settings p.textOf (p.stream.take n)) ∧
          st.ledger.Extends ledger := by
  have hscan := @outcome_scan_of_keepFirst p file settings hk
  refine ⟨Ledger.keeps_addAll, _, hscan, Ledger.keeps_addAll _, fun n => ?_⟩
  obtain ⟨st, hst⟩ := @exists_reaches p file settings hk n
  refine ⟨st, hst, ?_, extends_of_reaches hscan hst⟩
  rw [hst.eq]
  exact Ledger.keeps_addAll _

/-! A line that comes again among options and after them. -/

namespace Example

def refrain : Program :=
  ⟨Table.ofEntries [
      ("Quay", ⟨"Quay", [], [.line "line:1", .option "line:2", .option "line:2"]⟩),
      ("Ship", ⟨"Ship", [], [.showOptions, .line "line:1"]⟩)],
    Table.empty, Table.empty⟩

theorem keeps_of_scan_refrain :
    captured.onRepeat = .keepFirst ∧
      ∃ ledger, (refrain.scan ⟨"story.json"⟩ captured).outcome = .ok ledger ∧
        ledger.observations.entries =
          [("line:1", ⟨"", "", "Quay"⟩), ("line:2", ⟨"", "Fennel", "Ship"⟩)] ∧
        ledger.repeats = ["line:2", "line:1"] ∧
        ∃ st, Reaches refrain ⟨"story.json"⟩ captured 4 st ∧ st.ledger.repeats = ["line:2"] ∧
          st.ledger.Extends ledger := by
  obtain ⟨-, ledger, hscan, hkeeps, hprefix⟩ :=
    @keeps_of_scan captured refrain ⟨"story.json"⟩ rfl
  obtain ⟨st, hst, hst', hextends⟩ := hprefix 4
  refine ⟨rfl, ledger, hscan, hkeeps.entries.trans ?_, hkeeps.repeats.trans ?_, st, hst,
    hst'.repeats.trans ?_, hextends⟩
  · decide +kernel
  · decide +kernel
  · decide +kernel

end Example

end Scan

/-! ## 4. The first repeat -/

/-- What becomes of repeats makes no difference to the scene. -/
theorem Scene.advance_onRepeat (settings : ScanSettings) (onRepeat : OnRepeat) (scene : Scene)
    (i : Instruction) :
    scene.advance { settings with onRepeat := onRepeat } i = scene.advance settings i := by
  cases i <;> rfl

theorem Scene.deliveries_onRepeat (settings : ScanSettings) (onRepeat : OnRepeat)
    (textOf : String → String) (scene : Scene) (stream : List (String × Instruction)) :
    scene.deliveries { settings with onRepeat := onRepeat } textOf stream =
      scene.deliveries settings textOf stream := by
  induction stream generalizing scene with
  | nil => rfl
  | cons s stream ih =>
    obtain ⟨node, i⟩ := s
    simp only [deliveries, emissions, advance_onRepeat, ih]

/-- The first repeat that is kept is the first line that comes again. -/
theorem Ledger.head?_repeats_addAll {seen : List String} {l : Ledger}
    (hs : ∀ code, code ∈ seen ↔ l.has code = true) (hr : l.repeats = []) (es : List Emission) :
    (l.addAll es).repeats.head? = firstRepeat seen (es.map Emission.code) := by
  induction es generalizing seen l with
  | nil => simp [addAll, hr, firstRepeat]
  | cons e es ih =>
    by_cases he : l.has e.code = true
    · have hseen : e.code ∈ seen := (hs e.code).mpr he
      have hadd : (l.add e).repeats = [e.code] := by
        rw [add, if_pos he, hr, List.nil_append]
      -- What comes after the first repeat stands behind it.
      obtain ⟨more, hmore⟩ := (extends_addAll (l.add e) es).repeats
      rw [List.map_cons, firstRepeat, if_pos hseen]
      change ((l.add e).addAll es).repeats.head? = some e.code
      rw [← hmore, hadd, List.singleton_append, List.head?_cons]
    · have hseen : e.code ∉ seen := fun hm => he ((hs e.code).mp hm)
      have hadd : (l.add e).repeats = [] := by
        rw [add, if_neg he]
        exact hr
      rw [List.map_cons, firstRepeat, if_neg hseen]
      refine ih (l := l.add e) (fun code => ?_) hadd
      rw [List.mem_cons, Scan.has_add_iff, hs]

namespace Scan

/-- **The two policies agree.**  A scan that allows repeats always comes to its end.  One that does not
comes to the same end if there are no repeats, and else fails at the first of those that the other has
kept. -/
theorem policies_agree (p : Program) (file : FilePath) (speaker : String) (capture : Bool) :
    ∃ ledger, (p.scan file ⟨speaker, capture, .keepFirst⟩).outcome = .ok ledger ∧
      ((∃ ledger', (p.scan file ⟨speaker, capture, .abort⟩).outcome = .ok ledger') ↔
        ledger.repeats = []) ∧
      (p.scan file ⟨speaker, capture, .abort⟩).outcome =
        match ledger.repeats.head? with
        | some code => .error (.repeatedCode file code)
        | none => .ok ledger := by
  have hsame : p.deliveries ⟨speaker, capture, .abort⟩ =
      p.deliveries ⟨speaker, capture, .keepFirst⟩ :=
    Scene.deliveries_onRepeat ⟨speaker, capture, .keepFirst⟩ .abort p.textOf Scene.start p.stream
  have hfirst := @Ledger.head?_repeats_addAll [] Ledger.empty (by simp [Ledger.has, Ledger.empty]) rfl
    (p.deliveries ⟨speaker, capture, .keepFirst⟩)
  have habort := @outcome_scan_of_abort p file ⟨speaker, capture, .abort⟩ rfl
  rw [← p.map_code_deliveries, hsame, ← hfirst] at habort
  refine ⟨_, outcome_scan_of_keepFirst rfl, ?_, habort⟩
  rw [habort, ← List.head?_eq_none_iff]
  cases (Ledger.empty.addAll (p.deliveries ⟨speaker, capture, .keepFirst⟩)).repeats.head? with
  | none => simp
  | some code => simp

end Scan

end DialogueExport
