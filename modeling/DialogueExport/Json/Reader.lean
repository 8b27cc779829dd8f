import DialogueExport.Json.Skip

/-!
# Readers

A `Reader` takes one value of a type off the front of a text.  It reads in one pass and decides
by the characters that it meets: the first fault in the text is the one that is reported.  That
a reader which succeeds has taken something is a field of the type (`Reader.shrinks`), so a
list of values can be read by recursion on the text.

This file holds the readers without brackets of their own: strings, values that may be null,
and the two ways to build on a reader, `map` and `check`.
-/

namespace DialogueExport.Json

/-- How to take one value off the front of a text. -/
structure Reader (α : Type) where
  /-- The value and the rest of the text. -/
  run : List Char → Except Fault (α × List Char)
  /-- A value has at least one character. -/
  shrinks : ∀ {s a r}, run s = .ok (a, r) → r.length < s.length

/-! ## 1. A value of another type -/

/-- The fault of a text that does not start with a value of the wanted type.  A value without
brackets is read to its end first, so its own faults come first; a bracket is not opened. -/
def mismatch (wanted : Wanted) (s : List Char) : Fault :=
  match s with
  | [] => .here .endInValue []
  | c :: r =>
    let found : Except Fault (Found × List Char) :=
      if c = '[' then .ok (.list, s)
      else if c = '\x7b' then .ok (.object, s)
      else if c = '"' then (readText r).map fun (t, rest) => (.text (String.ofList t), rest)
      else if c = 'n' then (readLiteral ['u', 'l', 'l'] r).map fun rest => (.null, rest)
      else if c = 't' then (readLiteral ['r', 'u', 'e'] r).map fun rest => (.boolean true, rest)
      else if c = 'f' then
        (readLiteral ['a', 'l', 's', 'e'] r).map fun rest => (.boolean false, rest)
      else if c = '-' then readNumber true r
      else if isDigit c then readNumber false s
      else .error (.next .noValue s)
    match found with
    | .ok (found, rest) => .here (.mismatch found wanted) rest
    | .error f => f

variable {α β : Type}

/-! ## 2. Strings -/

/-- Reads a string. -/
def readString (s : List Char) : Except Fault (String × List Char) :=
  match skipSpace s with
  | [] => .error (mismatch .text [])
  | c :: r =>
    if c = '"' then (readText r).map fun (t, rest) => (String.ofList t, rest)
    else .error (mismatch .text (c :: r))

theorem length_of_readString {s r : List Char} {t : String} (h : readString s = .ok (t, r)) :
    r.length < s.length := by
  unfold readString at h
  split at h
  · cases h
  · next c u hs =>
    split at h
    · obtain ⟨⟨v, w⟩, hv, h⟩ := map_eq_ok.1 h
      cases h
      have := length_lt_of_skipSpace hs
      have := length_of_readText hv
      omega
    · cases h

/-- Reads a value or null. -/
def readNullable (value : Reader α) (s : List Char) : Except Fault (Option α × List Char) :=
  match skipSpace s with
  | 'n' :: r => (readLiteral ['u', 'l', 'l'] r).map fun rest => (none, rest)
  | _ => (value.run s).map fun (a, rest) => (some a, rest)

theorem length_of_readNullable {value : Reader α} {s r : List Char} {a : Option α}
    (h : readNullable value s = .ok (a, r)) : r.length < s.length := by
  unfold readNullable at h
  split at h
  · next t hs =>
    obtain ⟨u, hu, h⟩ := map_eq_ok.1 h
    cases h
    have := length_lt_of_skipSpace hs
    have := length_of_readLiteral hu
    omega
  · obtain ⟨⟨u, v⟩, hu, h⟩ := map_eq_ok.1 h
    cases h
    exact value.shrinks hu

/-! ## 3. Building on a reader -/

/-- Reads a value and turns it into another. -/
def readMapped (f : α → β) (value : Reader α) (s : List Char) : Except Fault (β × List Char) :=
  (value.run s).map fun (a, rest) => (f a, rest)

theorem length_of_readMapped {f : α → β} {value : Reader α} {s r : List Char} {b : β}
    (h : readMapped f value s = .ok (b, r)) : r.length < s.length := by
  obtain ⟨⟨a, t⟩, ha, h⟩ := map_eq_ok.1 h
  cases h
  exact value.shrinks ha

/-- Reads a value and turns it into one of the domain, or says why there is none. -/
def readChecked (f : α → Except String β) (value : Reader α) (s : List Char) :
    Except Fault (β × List Char) :=
  match value.run s with
  | .error fault => .error fault
  | .ok (a, rest) =>
    match f a with
    | .ok b => .ok (b, rest)
    | .error why => .error (.floating (.refused why) rest)

theorem readChecked_eq_ok {f : α → Except String β} {value : Reader α} {s r : List Char}
    {b : β} : readChecked f value s = .ok (b, r) ↔ ∃ a, value.run s = .ok (a, r) ∧ f a = .ok b := by
  unfold readChecked
  constructor
  · intro h
    split at h
    · cases h
    · next a t ha =>
      split at h
      · next b' hb => cases h; exact ⟨a, ha, hb⟩
      · cases h
  · rintro ⟨a, ha, hb⟩
    simp [ha, hb]

theorem length_of_readChecked {f : α → Except String β} {value : Reader α} {s r : List Char}
    {b : β} (h : readChecked f value s = .ok (b, r)) : r.length < s.length := by
  obtain ⟨a, ha, -⟩ := readChecked_eq_ok.1 h
  exact value.shrinks ha

namespace Reader

/-- A string. -/
def text : Reader String := ⟨readString, length_of_readString⟩

/-- A value or null. -/
def nullable (value : Reader α) : Reader (Option α) :=
  ⟨readNullable value, length_of_readNullable⟩

/-- A value turned into another. -/
def map (f : α → β) (value : Reader α) : Reader β := ⟨readMapped f value, length_of_readMapped⟩

/-- A value turned into one of the domain, if there is one. -/
def check (f : α → Except String β) (value : Reader α) : Reader β :=
  ⟨readChecked f value, length_of_readChecked⟩

/-! ## 4. Whole documents -/

/-- Reads a text that is one value, with white space around it. -/
def decode (value : Reader α) (text : String) : Except Error α :=
  let s := text.toList
  match value.run s with
  | .error f => .error (f.inText s)
  | .ok (a, rest) =>
    match skipSpace rest with
    | [] => .ok a
    | c :: r => .error (Fault.inText s (.next .moreCharacters (c :: r)))

/-- A text is read if nothing but white space is left behind the value. -/
theorem decode_eq_ok_iff {value : Reader α} {text : String} {a : α} :
    value.decode text = .ok a ↔
      ∃ rest, value.run text.toList = .ok (a, rest) ∧ skipSpace rest = [] := by
  unfold decode
  dsimp only
  constructor
  · intro h
    split at h
    · cases h
    · next b rest hb =>
      split at h
      · next hs =>
        cases h
        exact ⟨rest, hb, hs⟩
      · cases h
  · rintro ⟨rest, hr, hs⟩
    simp [hr, hs]

end Reader

end DialogueExport.Json
