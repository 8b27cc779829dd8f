import DialogueExport.Direction
import DialogueExport.Text.Split

/-!
# The grammar of scene directions

What a command is meant to do can be said of its words, without cutting it letter by letter.  Words are
the pieces between blanks that are not empty (`words_eq_filter_splitOnP`), and a name is what a word has
behind its last slash (`isBaseName_iff`).  Somebody enters if `Show` is the first word and there is a
third one; the speaker leaves if the text starts with `Hide` (`ReadAs`).

Of `Hide` only the letters are asked for.  A command to enter is meant to have the word `Show` at its front,
but it is read by its letters, too, and nobody looks at the first word again.  So `Showcase` lets somebody
enter (`Overread`).  Everything else is read as it is meant.

Main statement: `readAs_ofText_iff`.
-/

namespace DialogueExport

/-! ## 1. Words -/

namespace Text

theorem not_isBlank_of_mem_takeWhile_cons {c : Char} {r : List Char} (hc : ¬ isBlank c = true) :
    ∀ d ∈ c :: r.takeWhile fun d => !isBlank d, isBlank d = false := by
  intro d hd
  rcases List.mem_cons.mp hd with rfl | hd
  · simpa using hc
  · exact not_isBlank_of_mem_takeWhile hd

/-- The words of a text are its pieces between blanks, without the empty ones. -/
theorem words_eq_filter_splitOnP (s : List Char) :
    words s = (s.splitOnP isBlank).filter (· ≠ []) := by
  fun_induction words s with
  | case1 => simp
  | case2 c r hc ih =>
    -- A blank ends an empty piece.
    rw [List.splitOnP_cons_eq_if_modifyHead, if_pos hc, List.filter_cons_of_neg (by simp), ih]
  | case3 c r hc ih =>
    have hword := @not_isBlank_of_mem_takeWhile_cons c r hc
    have hcut : c :: r = (c :: r.takeWhile fun d => !isBlank d) ++ r.dropWhile fun d => !isBlank d := by
      rw [List.cons_append, List.takeWhile_append_dropWhile]
    have hstop := List.head?_dropWhile_not (fun d => !isBlank d) r
    rw [ih, hcut]
    -- The first piece ends where the text does or at a blank, which has an empty piece in front of it.
    cases hrest : r.dropWhile fun d => !isBlank d with
    | nil =>
      rw [List.append_nil, List.splitOnP_eq_singleton hword]
      simp
    | cons b rest =>
      have hb : isBlank b = true := by simpa [hrest] using hstop
      rw [List.splitOnP_append_cons_of_forall_mem hword b hb, List.filter_cons_of_pos (by simp),
        List.splitOnP_cons_eq_if_modifyHead, if_pos hb, List.filter_cons_of_neg (by simp)]

end Text

namespace Direction

/-- The words of a command. -/
def wordsOf (text : String) : List (List Char) :=
  (text.toList.splitOnP Text.isBlank).filter (· ≠ [])

/-! ## 2. Names -/

/-- What a word has behind its last slash, or all of it if it has none. -/
def IsBaseName (word name : List Char) : Prop :=
  '/' ∉ name ∧ (name = word ∨ ∃ front, word = front ++ '/' :: name)

theorem baseName_append (front : List Char) {name : List Char} (h : '/' ∉ name) :
    baseName (front ++ '/' :: name) = name := by
  rw [baseName, Text.takeWhile_reverse_append front h, List.reverse_reverse]

theorem isBaseName_iff {word name : List Char} : IsBaseName word name ↔ name = baseName word := by
  constructor
  · rintro ⟨hname, rfl | ⟨front, rfl⟩⟩
    · exact (baseName_of_not_mem hname).symm
    · exact (baseName_append front hname).symm
  · rintro rfl
    refine ⟨not_mem_baseName word, ?_⟩
    by_cases hslash : '/' ∈ word
    · obtain ⟨front, name, rfl, hname⟩ := Text.exists_eq_append_cons_of_mem hslash
      rw [baseName_append front hname]
      exact Or.inr ⟨front, rfl⟩
    · exact Or.inl (baseName_of_not_mem hslash)

/-! ## 3. What a command means and how it is read -/

variable {text name : String}

/-- The text starts with these letters. -/
def Opens (keyword text : String) : Prop := keyword.toList <+: text.toList

/-- The third word of a text ends in a name. -/
def Calls (text name : String) : Prop :=
  ∃ word, (wordsOf text)[2]? = some word ∧ IsBaseName word name.toList

/-- The text is meant to let somebody enter: it starts with the word `Show`, and its third word ends in
the name. -/
structure Shows (text name : String) : Prop where
  opens : Opens "Show" text
  first : (wordsOf text)[0]? = some "Show".toList
  calls : Calls text name

/-- The direction is what the text means. -/
structure ReadAs (text : String) (d : Direction) : Prop where
  enter : ∀ name, d = .enter name ↔ Shows text name
  leave : d = .leave ↔ Opens "Hide" text
  other : d = .other ↔ (∀ name, ¬ Shows text name) ∧ ¬ Opens "Hide" text

/-- The text starts with a longer word that begins with `Show`, and it has a third word. -/
def Overread (text : String) : Prop :=
  Opens "Show" text ∧ (∃ more, more ≠ [] ∧ (wordsOf text)[0]? = some ("Show".toList ++ more)) ∧
    ∃ name, Calls text name

theorem announces_iff {keyword : String} :
    announces keyword.toList text.toList = true ↔ Opens keyword text :=
  List.isPrefixOf_iff_prefix

theorem calls_iff :
    Calls text name ↔
      ∃ word, (Text.words text.toList)[2]? = some word ∧ name = String.ofList (baseName word) := by
  unfold Calls wordsOf
  simp only [Text.words_eq_filter_splitOnP, isBaseName_iff, String.ext_iff, String.toList_ofList]

theorem Opens.not_opens_hide (h : Opens "Show" text) : ¬ Opens "Hide" text := by
  rintro ⟨s, hs⟩
  obtain ⟨r, hr⟩ := h
  rw [← hr] at hs
  exact absurd (List.head_eq_of_cons_eq hs) (by decide)

/-- A text that starts with the letters of `Show` has them at the front of its first word. -/
theorem Opens.exists_first (h : Opens "Show" text) :
    ∃ more, (wordsOf text)[0]? = some ("Show".toList ++ more) := by
  obtain ⟨r, hr⟩ := h
  have hwords : Text.words ("Show".toList ++ r) =
      ("Show".toList ++ r.takeWhile fun d => !Text.isBlank d) ::
        Text.words (r.dropWhile fun d => !Text.isBlank d) :=
    Text.words_cons_of_not_isBlank (by decide) _
  refine ⟨r.takeWhile fun d => !Text.isBlank d, ?_⟩
  rw [wordsOf, ← Text.words_eq_filter_splitOnP, ← hr, hwords, List.getElem?_cons_zero]

theorem ofText_eq_enter_iff : ofText text = .enter name ↔ Opens "Show" text ∧ Calls text name := by
  rw [← announces_iff, calls_iff]
  unfold ofText
  dsimp only
  constructor
  · intro h
    split at h
    · next hopens =>
      split at h
      · next word hword => exact ⟨hopens, word, hword, (Direction.enter.inj h).symm⟩
      · cases h
    · split at h <;> cases h
  · rintro ⟨hopens, word, hword, rfl⟩
    exact (if_pos hopens).trans (by rw [hword])

theorem ofText_eq_leave_iff : ofText text = .leave ↔ Opens "Hide" text := by
  constructor
  · intro h
    unfold ofText at h
    dsimp only at h
    split at h
    · split at h <;> cases h
    · split at h
      · next hopens => exact announces_iff.mp hopens
      · cases h
  · intro h
    have hshow : ¬ announces "Show".toList text.toList = true := fun hs =>
      (announces_iff.mp hs).not_opens_hide h
    exact (if_neg hshow).trans (if_pos (announces_iff.mpr h))

theorem eq_other_iff (d : Direction) : d = .other ↔ (∀ name, ¬ d = .enter name) ∧ ¬ d = .leave := by
  cases d <;> simp

theorem ofText_eq_other_iff :
    ofText text = .other ↔ (∀ name, ¬ (Opens "Show" text ∧ Calls text name)) ∧ ¬ Opens "Hide" text := by
  simp only [eq_other_iff, ofText_eq_enter_iff, ofText_eq_leave_iff]

/-- **How commands are read.**  Somebody enters exactly if the text starts with the letters of `Show` and
has a third word, which ends in the name; the speaker leaves exactly if it starts with `Hide`; any other
text does nothing.  This is what the text means, unless it starts with a longer word that begins with
`Show` and has a third word. -/
theorem readAs_ofText_iff (text : String) :
    (∀ name, ofText text = .enter name ↔ Opens "Show" text ∧ Calls text name) ∧
      (ofText text = .leave ↔ Opens "Hide" text) ∧
      (ofText text = .other ↔
        (∀ name, ¬ (Opens "Show" text ∧ Calls text name)) ∧ ¬ Opens "Hide" text) ∧
      (ReadAs text (ofText text) ↔ ¬ Overread text) := by
  refine ⟨fun name => ofText_eq_enter_iff, ofText_eq_leave_iff, ofText_eq_other_iff, ?_, ?_⟩
  · rintro h ⟨hopens, ⟨more, hmore, hfirst⟩, name, hcalls⟩
    have hmeant := (h.enter name).mp (ofText_eq_enter_iff.mpr ⟨hopens, hcalls⟩)
    rw [hmeant.first] at hfirst
    exact hmore (List.self_eq_append_right.mp (Option.some.inj hfirst))
  · intro h
    have hshows : ∀ name, Opens "Show" text ∧ Calls text name ↔ Shows text name := by
      intro name
      constructor
      · rintro ⟨hopens, hcalls⟩
        obtain ⟨more, hfirst⟩ := hopens.exists_first
        by_cases hmore : more = []
        · rw [hmore, List.append_nil] at hfirst
          exact ⟨hopens, hfirst, hcalls⟩
        · exact absurd ⟨hopens, ⟨more, hmore, hfirst⟩, name, hcalls⟩ h
      · intro hshows
        exact ⟨hshows.opens, hshows.calls⟩
    refine ⟨fun name => ofText_eq_enter_iff.trans (hshows name), ofText_eq_leave_iff, ?_⟩
    simp only [ofText_eq_other_iff, hshows]

/-! A longer word than `Show`. -/

namespace Example

theorem ofText_showcase : ofText "Showcase NPC Room/Aria" = .enter "Aria" := by decide +kernel

/-- Commands are not always read as they are meant. -/
theorem not_forall_readAs_ofText : ¬ ∀ text, ReadAs text (ofText text) := by
  intro h
  have hmeant := ((h "Showcase NPC Room/Aria").enter "Aria").mp ofText_showcase
  have hfirst : (wordsOf "Showcase NPC Room/Aria")[0]? = some "Showcase".toList := by decide +kernel
  rw [hmeant.first] at hfirst
  exact absurd hfirst (by decide)

end Example

end Direction

end DialogueExport
