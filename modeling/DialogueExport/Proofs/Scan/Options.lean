import Mathlib.Data.List.Forall2
import DialogueExport.Proofs.Scan.Repeats

/-!
# Every option is shown once

An option is named in one place of a program and delivered in another.  A `Passage` has both places, and
`passages` lists those of a program from the instructions alone: a line of its own is delivered where it
is named, an option where options are shown next (`ShownNext`), and only if options are captured.  The
list has every option at most once, under the order in which the options were queued
(`pairwise_before_passages`, `filter_passages_of_shownNext`).

A scan delivers exactly these passages, in this order (`forall₂_delivers`).  The induction is on the
point that the scan has reached, and its invariant is that the queue of the scene holds the options
whose passages are still open there (`forall₂_waiting`).

Main statement: `options_of_scan`.
-/

namespace DialogueExport

namespace Scan

/-! ## 1. Passages -/

/-- The way of a line: the position that names it and the one that delivers it. -/
structure Passage where
  origin : Nat
  place : Nat
deriving DecidableEq

/-- The one passage ends before the other, or both end in one place and it has begun before. -/
def Passage.Before (x y : Passage) : Prop :=
  x.place < y.place ∨ x.place = y.place ∧ x.origin < y.origin

/-- Options are shown at position `k`, for the first time behind position `j`. -/
def ShownNext (is : List Instruction) (j k : Nat) : Prop :=
  j < k ∧ is[k]? = some .showOptions ∧ ∀ m < k, j < m → is[m]? ≠ some .showOptions

/-- Whether an option is named at position `j`. -/
def isOptionAt (is : List Instruction) (j : Nat) : Bool := (is[j]?.bind optionOf?).isSome

/-- The positions in front of `k` of the options that were not shown there yet, in order. -/
def waiting (is : List Instruction) (k : Nat) : List Nat :=
  (List.range k).filter fun j =>
    isOptionAt is j && decide (∀ m < k, j < m → is[m]? ≠ some .showOptions)

/-- The positions that name what is delivered at position `k`, in order. -/
def origins (settings : ScanSettings) (is : List Instruction) (k : Nat) : List Nat :=
  match is[k]? with
  | some (.line _) => [k]
  | some .showOptions => if settings.captureOptions then waiting is k else []
  | _ => []

/-- The passages that end in front of position `n`, in the order of their deliveries. -/
def passages (settings : ScanSettings) (is : List Instruction) (n : Nat) : List Passage :=
  (List.range n).flatMap fun k => (origins settings is k).map fun j => ⟨j, k⟩

variable {settings : ScanSettings} {is : List Instruction} {j k n : Nat}

theorem isOptionAt_iff : isOptionAt is j = true ↔ ∃ code, is[j]? = some (.option code) := by
  rw [isOptionAt, Option.isSome_iff_exists]
  refine exists_congr fun code => ?_
  rw [Option.bind_eq_some_iff]
  constructor
  · rintro ⟨i, hi, ho⟩
    cases i with
    | option code' =>
      obtain rfl := Option.some.inj ho
      exact hi
    | line | showOptions | command | other => cases ho
  · intro h
    exact ⟨_, h, rfl⟩

theorem mem_waiting_iff :
    j ∈ waiting is k ↔ j < k ∧ (∃ code, is[j]? = some (.option code)) ∧
      ∀ m < k, j < m → is[m]? ≠ some .showOptions := by
  rw [waiting, List.mem_filter, List.mem_range, Bool.and_eq_true, isOptionAt_iff, decide_eq_true_iff]

theorem mem_origins_iff :
    j ∈ origins settings is k ↔
      (j = k ∧ ∃ code, is[k]? = some (.line code)) ∨
        settings.captureOptions = true ∧ (∃ code, is[j]? = some (.option code)) ∧ ShownNext is j k := by
  unfold origins ShownNext
  split
  · next code hk => simp [hk]
  · next hk =>
    by_cases hc : settings.captureOptions = true
    · simp only [hc, hk, if_true, mem_waiting_iff, Option.some.injEq, reduceCtorEq, exists_false,
        and_false, false_or, true_and]
      exact and_left_comm
    · simp [hc, hk]
  · next hline hshow =>
    simp only [List.not_mem_nil, false_iff, not_or, not_and, not_exists]
    exact ⟨fun _ code hk => hline code hk, fun _ _ _ hk => absurd hk hshow⟩

theorem mem_passages_iff {x : Passage} :
    x ∈ passages settings is n ↔ x.place < n ∧ x.origin ∈ origins settings is x.place := by
  obtain ⟨j, k⟩ := x
  simp only [passages, List.mem_flatMap, List.mem_range, List.mem_map, Passage.mk.injEq]
  constructor
  · rintro ⟨_, hk, _, hj, rfl, rfl⟩
    exact ⟨hk, hj⟩
  · rintro ⟨hk, hj⟩
    exact ⟨k, hk, j, hj, rfl, rfl⟩

theorem pairwise_lt_origins (settings : ScanSettings) (is : List Instruction) (k : Nat) :
    (origins settings is k).Pairwise (· < ·) := by
  unfold origins
  split
  · exact List.pairwise_singleton _ _
  · split
    · exact List.pairwise_lt_range.filter _
    · exact List.Pairwise.nil
  · exact List.Pairwise.nil

/-- Passages are listed in the order of their places, and options of one queue in that of the queue. -/
theorem pairwise_before_passages (settings : ScanSettings) (is : List Instruction) (n : Nat) :
    (passages settings is n).Pairwise Passage.Before := by
  rw [passages, List.pairwise_flatMap]
  constructor
  · intro k _
    rw [List.pairwise_map]
    exact (pairwise_lt_origins settings is k).imp fun h => Or.inr ⟨rfl, h⟩
  · refine List.pairwise_lt_range.imp ?_
    intro k k' hk x hx y hy
    obtain ⟨_, -, rfl⟩ := List.mem_map.mp hx
    obtain ⟨_, -, rfl⟩ := List.mem_map.mp hy
    exact Or.inl hk

theorem nodup_passages (settings : ScanSettings) (is : List Instruction) (n : Nat) :
    (passages settings is n).Nodup := by
  refine (pairwise_before_passages settings is n).imp ?_
  rintro x _ h rfl
  rcases h with h | ⟨-, h⟩
  · exact Nat.lt_irrefl _ h
  · exact Nat.lt_irrefl _ h

/-- Options are shown next in one place only. -/
theorem ShownNext.unique {k' : Nat} (h : ShownNext is j k) (h' : ShownNext is j k') : k = k' := by
  obtain ⟨hjk, hk, hnone⟩ := h
  obtain ⟨hjk', hk', hnone'⟩ := h'
  rcases Nat.lt_trichotomy k k' with hlt | heq | hgt
  · exact absurd hk (hnone' k hlt hjk)
  · exact heq
  · exact absurd hk' (hnone k' hgt hjk')

/-- An option has one passage, from the point on at which it was shown. -/
theorem filter_passages_of_shownNext {code : String} (hc : settings.captureOptions = true)
    (hj : is[j]? = some (.option code)) (hk : ShownNext is j k) (n : Nat) :
    (passages settings is n).filter (fun x => x.origin = j) = if k < n then [⟨j, k⟩] else [] := by
  have hmem : ∀ x : Passage, x ∈ (passages settings is n).filter (fun x => x.origin = j) ↔
      k < n ∧ x = ⟨j, k⟩ := by
    rintro ⟨j', k'⟩
    simp only [List.mem_filter, mem_passages_iff, mem_origins_iff, decide_eq_true_iff,
      Passage.mk.injEq]
    constructor
    · rintro ⟨⟨hn, h | ⟨-, -, hk'⟩⟩, rfl⟩
      · obtain ⟨rfl, code', hline⟩ := h
        rw [hj] at hline
        cases hline
      · obtain rfl := hk.unique hk'
        exact ⟨hn, rfl, rfl⟩
    · rintro ⟨hn, rfl, rfl⟩
      exact ⟨⟨hn, Or.inr ⟨hc, ⟨code, hj⟩, hk⟩⟩, rfl⟩
  split
  · next hn =>
    refine List.perm_singleton.mp ((List.perm_ext_iff_of_nodup
      ((nodup_passages settings is n).filter _) (List.pairwise_singleton _ _)).mpr fun x => ?_)
    rw [hmem, List.mem_singleton]
    exact and_iff_right hn
  · next hn => exact List.eq_nil_iff_forall_not_mem.mpr fun x hx => hn ((hmem x).mp hx).1

/-! ## 2. The queue -/

theorem waiting_succ_of_showOptions (hn : is[n]? = some .showOptions) : waiting is (n + 1) = [] := by
  refine List.eq_nil_iff_forall_not_mem.mpr fun j hj => ?_
  obtain ⟨hjn, ⟨code, hoption⟩, hnone⟩ := mem_waiting_iff.mp hj
  rcases Nat.lt_succ_iff_lt_or_eq.mp hjn with hlt | rfl
  · exact hnone n (Nat.lt_succ_self n) hlt hn
  · rw [hn] at hoption
    cases hoption

theorem waiting_succ_of_ne (hn : is[n]? ≠ some .showOptions) :
    waiting is (n + 1) = waiting is n ++ if isOptionAt is n then [n] else [] := by
  have hbefore : ∀ j ∈ List.range n,
      (isOptionAt is j && decide (∀ m < n + 1, j < m → is[m]? ≠ some .showOptions)) =
        (isOptionAt is j && decide (∀ m < n, j < m → is[m]? ≠ some .showOptions)) := by
    intro j _
    congr 1
    refine decide_eq_decide.mpr ⟨fun h m hm => h m (Nat.lt_succ_of_lt hm), fun h m hm hjm => ?_⟩
    rcases Nat.lt_succ_iff_lt_or_eq.mp hm with hlt | rfl
    · exact h m hlt hjm
    · exact hn
  have hlast : ∀ m < n + 1, n < m → is[m]? ≠ some .showOptions := fun m hm hnm =>
    absurd (Nat.lt_succ_iff.mp hm) (Nat.not_le.mpr hnm)
  rw [waiting, List.range_succ, List.filter_append, List.filter_congr hbefore]
  congr 1
  by_cases ho : isOptionAt is n = true
  · rw [if_pos ho, List.filter_cons_of_pos (by rw [ho, decide_eq_true hlast]; rfl), List.filter_nil]
  · rw [if_neg ho, List.filter_cons_of_neg (by simp [ho]), List.filter_nil]

/-- The options that wait are those that were queued since options were last shown, one by one. -/
theorem forall₂_waiting : ∀ {n : Nat}, n ≤ is.length →
    List.Forall₂ (fun j code => is[j]? = some (.option code)) (waiting is n) (queued (is.take n))
  | 0, _ => .nil
  | n + 1, hn => by
    have ih := forall₂_waiting (Nat.le_of_succ_le hn)
    obtain ⟨i, hi⟩ : ∃ i, is[n]? = some i := ⟨_, List.getElem?_eq_getElem hn⟩
    rw [List.take_add_one, hi, Option.toList_some, queued_concat]
    -- Showing options empties both lists; anything else lets them grow at their ends or not at all.
    by_cases hshow : i = .showOptions
    · rw [if_pos hshow, waiting_succ_of_showOptions (hshow ▸ hi)]
      exact .nil
    · rw [if_neg hshow, waiting_succ_of_ne (by rw [hi]; exact hshow ∘ Option.some.inj)]
      refine List.rel_append ih ?_
      cases i with
      | option code =>
        rw [if_pos (isOptionAt_iff.mpr ⟨code, hi⟩)]
        exact .cons hi .nil
      | line | showOptions | command | other =>
        rw [if_neg (by simp [isOptionAt, hi, optionOf?])]
        exact .nil

/-! ## 3. What a scan delivers -/

/-- What is delivered when a line has made its way. -/
inductive Delivers (p : Program) (settings : ScanSettings) : Passage → Emission → Prop
  /-- A line of its own is delivered where it is named, and spoken by whoever speaks there. -/
  | line {k : Nat} {node code : String} (h : p.stream[k]? = some (node, .line code)) :
      Delivers p settings ⟨k, k⟩
        ⟨code, p.textOf code, speakerAt settings p.instructions k, node⟩
  /-- An option is delivered where options are shown: there is the node, and the speaker is the one
  of the options. -/
  | option {j k : Nat} {home node code : String} (hj : p.stream[j]? = some (home, .option code))
      (hk : p.stream[k]? = some (node, .showOptions)) :
      Delivers p settings ⟨j, k⟩ ⟨code, p.textOf code, settings.optionsSpeaker, node⟩

variable {p : Program}

theorem exists_stream_of_option {code : String} (hj : p.instructions[j]? = some (.option code)) :
    ∃ home, p.stream[j]? = some (home, .option code) := by
  rw [← p.map_snd_stream, List.getElem?_map] at hj
  obtain ⟨⟨home, i⟩, hs, hi⟩ := Option.map_eq_some_iff.mp hj
  exact ⟨home, by rw [hs, ← hi]⟩

/-- An instruction delivers the lines whose passages end with it. -/
theorem forall₂_emissions {node : String} {i : Instruction} (hn : p.stream[n]? = some (node, i)) :
    List.Forall₂ (Delivers p settings)
      ((origins settings p.instructions n).map fun j => ⟨j, n⟩)
      ((Scene.start.after settings (p.instructions.take n)).emissions settings p.textOf node i) := by
  have hi := getElem?_instructions hn
  have hlt : n < p.instructions.length := (List.getElem?_eq_some_iff.mp hi).1
  unfold origins Scene.emissions
  rw [hi]
  cases i with
  | line code =>
    have hspeaker : speakerAt settings p.instructions n =
        (Scene.start.after settings (p.instructions.take n)).speaker := by
      rw [speakerAt, hi, if_neg (by simp), speaker_after]
    have h := @Delivers.line p settings n node code hn
    rw [hspeaker] at h
    exact .cons h .nil
  | showOptions =>
    simp only [Scene.delivers, Scene.pending_after]
    by_cases hc : settings.captureOptions = true
    · rw [if_pos hc, if_pos hc, List.forall₂_map_left_iff, List.forall₂_map_right_iff]
      refine (forall₂_waiting (Nat.le_of_lt hlt)).imp fun j code hj => ?_
      obtain ⟨home, hs⟩ := exists_stream_of_option hj
      exact .option hs hn
    · rw [if_neg hc, if_neg hc]
      exact .nil
  | option | command | other => exact .nil

/-- Up to every point a program delivers the passages that end in front of it. -/
theorem forall₂_delivers (p : Program) (settings : ScanSettings) : ∀ n : Nat,
    List.Forall₂ (Delivers p settings) (passages settings p.instructions n)
      (Scene.start.deliveries settings p.textOf (p.stream.take n))
  | 0 => .nil
  | n + 1 => by
    have ih := forall₂_delivers p settings n
    have hpassages : passages settings p.instructions (n + 1) =
        passages settings p.instructions n ++
          (origins settings p.instructions n).map fun j => ⟨j, n⟩ := by
      rw [passages, List.range_succ, List.flatMap_append, List.flatMap_singleton, passages]
    rw [hpassages, List.take_add_one]
    cases hs : p.stream[n]? with
    | none =>
      -- Behind the end of the program nothing is named and nothing delivered.
      have hi : p.instructions[n]? = none := by
        rw [← p.map_snd_stream, List.getElem?_map, hs]
        rfl
      simpa [origins, hi] using ih
    | some s =>
      rw [Option.toList_some, Scene.deliveries_concat, List.map_take, p.map_snd_stream]
      exact List.rel_append ih (forall₂_emissions hs)

/-- **Every option is shown once.**  A scan that allows repeats handles every instruction.  Wherever it
stands, exactly the options wait that were queued since options were last shown, and the ledger keeps
what was delivered so far, which came one by one from the passages that end before.  An option has one
passage, from the point on at which options are shown next, and none if they are not shown again; passages
are in the order of their places, and options of one queue in that of the queue.  If options are not
captured, no option ever waits and only lines of their own have passages. -/
theorem options_of_scan (p : Program) (file : FilePath) (settings : ScanSettings) :
    (settings.onRepeat = .keepFirst → ∀ n, ∃ st, Reaches p file settings n st) ∧
      (∀ n st, Reaches p file settings n st →
        st.scene.pending =
            (if settings.captureOptions then queued (p.instructions.take n) else []) ∧
          st.ledger =
            Ledger.empty.addAll (Scene.start.deliveries settings p.textOf (p.stream.take n)) ∧
          st.ledger.Keeps (Scene.start.deliveries settings p.textOf (p.stream.take n))) ∧
      (∀ n, List.Forall₂ (Delivers p settings) (passages settings p.instructions n)
        (Scene.start.deliveries settings p.textOf (p.stream.take n))) ∧
      (∀ n, (passages settings p.instructions n).Pairwise Passage.Before) ∧
      (settings.captureOptions = true → ∀ j code, p.instructions[j]? = some (.option code) →
        (∀ k, ShownNext p.instructions j k → ∀ n,
          (passages settings p.instructions n).filter (fun x => x.origin = j) =
            if k < n then [⟨j, k⟩] else []) ∧
        ((∀ k, j < k → p.instructions[k]? ≠ some .showOptions) → ∀ n,
          ∀ x ∈ passages settings p.instructions n, x.origin ≠ j)) ∧
      (settings.captureOptions = false → ∀ n, ∀ x ∈ passages settings p.instructions n,
        x.place = x.origin ∧ ∃ code, p.instructions[x.origin]? = some (.line code)) := by
  refine ⟨fun hk n => exists_reaches hk n, fun n st hst => ?_, forall₂_delivers p settings,
    pairwise_before_passages settings p.instructions, fun hc j code hj => ⟨fun k hk n => ?_, ?_⟩,
    fun hc n x hx => ?_⟩
  · rw [hst.eq]
    exact ⟨Scene.pending_after _, rfl, Ledger.keeps_addAll _⟩
  · exact filter_passages_of_shownNext hc hj hk n
  · rintro hnone n x hx rfl
    rcases mem_origins_iff.mp (mem_passages_iff.mp hx).2 with ⟨heq, code', hline⟩ | ⟨-, -, hjk, hk, -⟩
    · rw [← heq, hj] at hline
      cases hline
    · exact hnone x.place hjk hk
  · rcases mem_origins_iff.mp (mem_passages_iff.mp hx).2 with ⟨heq, code, hline⟩ | ⟨hcapture, -⟩
    · exact ⟨heq.symm, code, heq ▸ hline⟩
    · rw [hc] at hcapture
      cases hcapture

/-! Options of one node that are shown in another, one of them twice, and one that is never shown. -/

namespace Example

def gangway : Program :=
  ⟨Table.ofEntries [
      ("Quay", ⟨"Quay", [], [.option "line:1", .option "line:2", .option "line:1"]⟩),
      ("Ship", ⟨"Ship", [], [.showOptions, .option "line:3"]⟩)],
    Table.empty, Table.empty⟩

theorem options_of_scan_gangway :
    ∃ st, Reaches gangway ⟨"story.json"⟩ captured 5 st ∧ st.scene.pending = ["line:3"] ∧
      st.ledger.repeats = ["line:1"] ∧
      List.Forall₂ (Delivers gangway captured) [⟨0, 3⟩, ⟨1, 3⟩, ⟨2, 3⟩]
        (Scene.start.deliveries captured gangway.textOf (gangway.stream.take 5)) ∧
      ShownNext gangway.instructions 1 3 ∧
      (passages captured gangway.instructions 5).filter (fun x => x.origin = 1) = [⟨1, 3⟩] ∧
      ∀ x ∈ passages captured gangway.instructions 5, x.origin ≠ 4 := by
  obtain ⟨hreaches, hstate, hdelivers, -, hoption, -⟩ :=
    options_of_scan gangway ⟨"story.json"⟩ captured
  obtain ⟨st, hst⟩ := hreaches rfl 5
  have hpassages : passages captured gangway.instructions 5 = [⟨0, 3⟩, ⟨1, 3⟩, ⟨2, 3⟩] := by
    decide +kernel
  have hshown : ShownNext gangway.instructions 1 3 := ⟨by decide, by decide, by decide⟩
  have hnever : ∀ k, 4 < k → gangway.instructions[k]? ≠ some .showOptions := by
    intro k hk
    rw [List.getElem?_eq_none hk]
    exact Option.some_ne_none _ ∘ Eq.symm
  obtain ⟨hpending, -, hkeeps⟩ := hstate 5 st hst
  exact ⟨st, hst, hpending, hkeeps.repeats.trans (by decide +kernel), hpassages ▸ hdelivers 5, hshown,
    (hoption rfl 1 "line:2" (by decide)).1 3 hshown 5, (hoption rfl 4 "line:3" (by decide)).2 hnever 5⟩

end Example

end Scan

end DialogueExport
