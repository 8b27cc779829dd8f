import DialogueExport.Json.Space
import DialogueExport.Outcome

/-!
# Strings of a document

* `readText` reads a string from behind its opening quote up to its closing one;
* `skipText` passes over a string whose value is not wanted: it asks less of an escape, and
  it refuses a control character before it has taken it;
* `printText` writes a string: the quote, the backslash and the control characters are
  escaped, everything else stands for itself.

Main statement: reading undoes printing, whatever follows (`readText_printText`).
-/

namespace DialogueExport.Json

open DialogueExport.Text (bytes)

/-! ## 1. Escapes -/

/-- The character that a letter after a backslash stands for. -/
def ofLetter? : Char → Option Char
  | '"' => some '"'
  | '\\' => some '\\'
  | '/' => some '/'
  | 'b' => some '\x08'
  | 'f' => some '\x0c'
  | 'n' => some '\n'
  | 'r' => some '\r'
  | 't' => some '\t'
  | _ => none

/-- The value of a hexadecimal digit. -/
def hexDigit? (c : Char) : Option Nat :=
  if '0' ≤ c ∧ c ≤ '9' then some (c.toNat - 48)
  else if 'a' ≤ c ∧ c ≤ 'f' then some (c.toNat - 87)
  else if 'A' ≤ c ∧ c ≤ 'F' then some (c.toNat - 55)
  else none

/-- What is wrong where four hexadecimal digits should be.  Four bytes are taken in any case,
so a text with fewer ends inside the string, whatever they are. -/
def hexFault (s : List Char) : Fault :=
  if bytes s < 4 then .placed .endInText 0 else .placed .malformedEscape (bytes s - 4)

/-- Takes four hexadecimal digits. -/
def readHex (s : List Char) : Except Fault (Nat × List Char) :=
  match s with
  | a :: b :: c :: d :: r =>
    match hexDigit? a, hexDigit? b, hexDigit? c, hexDigit? d with
    | some a, some b, some c, some d => .ok (((a * 16 + b) * 16 + c) * 16 + d, r)
    | _, _, _, _ => .error (hexFault s)
  | _ => .error (hexFault s)

/-- Takes one character that must be there and be `c`. -/
def readHalf (c : Char) : List Char → Except Fault (List Char)
  | [] => .error (.placed .endInText 0)
  | d :: r => if d = c then .ok r else .error (.next .halfEscape (d :: r))

/-- The character above the first plane that a leading and a trailing surrogate make. -/
def ofSurrogates (lead trail : Nat) : Char :=
  Char.ofNat (0x10000 + (lead - 0xd800) * 0x400 + (trail - 0xdc00))

/-- The escape that must follow one for a leading surrogate. -/
def readTrailing (lead : Nat) (s : List Char) : Except Fault (Char × List Char) := do
  let r ← readHalf '\\' s
  let r ← readHalf 'u' r
  let (trail, r) ← readHex r
  if 0xdc00 ≤ trail ∧ trail ≤ 0xdfff then .ok (ofSurrogates lead trail, r)
  else .error (.here .loneSurrogate r)

/-- The rest of an escape by number.  A number above the first plane is written as a leading
and a trailing surrogate; neither may stand alone. -/
def readUnicode (s : List Char) : Except Fault (Char × List Char) := do
  let (n, r) ← readHex s
  if 0xdc00 ≤ n ∧ n ≤ 0xdfff then .error (.here .loneSurrogate r)
  else if 0xd800 ≤ n ∧ n ≤ 0xdbff then readTrailing n r
  else .ok (Char.ofNat n, r)

/-- The rest of an escape, from behind the backslash. -/
def readEscape : List Char → Except Fault (Char × List Char)
  | [] => .error (.placed .endInText 0)
  | c :: r =>
    match ofLetter? c with
    | some d => .ok (d, r)
    | none => if c = 'u' then readUnicode r else .error (.next .malformedEscape (c :: r))

/-- The rest of an escape that is passed over: four digits make any number. -/
def skipEscape : List Char → Except Fault (List Char)
  | [] => .error (.placed .endInText 0)
  | c :: r =>
    match ofLetter? c with
    | some _ => .ok r
    | none =>
      if c = 'u' then (readHex r).map Prod.snd else .error (.next .malformedEscape (c :: r))

theorem length_of_readHex {s r : List Char} {n : Nat} (h : readHex s = .ok (n, r)) :
    r.length + 4 = s.length := by
  unfold readHex at h
  split at h
  · split at h
    · simp only [Except.ok.injEq, Prod.mk.injEq] at h
      simp [← h.2]
    · cases h
  · cases h

theorem length_of_readHalf {c : Char} {s r : List Char} (h : readHalf c s = .ok r) :
    r.length + 1 = s.length := by
  unfold readHalf at h
  split at h
  · cases h
  · split at h
    · cases h; rfl
    · cases h

theorem length_of_readTrailing {n : Nat} {s r : List Char} {c : Char}
    (h : readTrailing n s = .ok (c, r)) : r.length < s.length := by
  obtain ⟨r₁, h₁, h⟩ := bind_eq_ok.1 h
  obtain ⟨r₂, h₂, h⟩ := bind_eq_ok.1 h
  obtain ⟨⟨m, r₃⟩, h₃, h⟩ := bind_eq_ok.1 h
  have l₁ := length_of_readHalf h₁
  have l₂ := length_of_readHalf h₂
  have l₃ := length_of_readHex h₃
  dsimp only at h
  split at h
  · simp only [Except.ok.injEq, Prod.mk.injEq] at h
    obtain ⟨-, rfl⟩ := h
    omega
  · cases h

theorem length_of_readUnicode {s r : List Char} {c : Char} (h : readUnicode s = .ok (c, r)) :
    r.length < s.length := by
  obtain ⟨⟨n, r₁⟩, h₁, h⟩ := bind_eq_ok.1 h
  have l₁ := length_of_readHex h₁
  dsimp only at h
  split at h
  · cases h
  · split at h
    · have := length_of_readTrailing h
      omega
    · simp only [Except.ok.injEq, Prod.mk.injEq] at h
      obtain ⟨-, rfl⟩ := h
      omega

theorem length_of_readEscape {s r : List Char} {c : Char} (h : readEscape s = .ok (c, r)) :
    r.length < s.length := by
  unfold readEscape at h
  split at h
  · cases h
  · split at h
    · cases h; simp
    · split at h
      · have := length_of_readUnicode h; simp only [List.length_cons]; omega
      · cases h

theorem length_of_skipEscape {s r : List Char} (h : skipEscape s = .ok r) :
    r.length < s.length := by
  unfold skipEscape at h
  split at h
  · cases h
  · next d t =>
    split at h
    · cases h; simp
    · split at h
      · cases ht : readHex t with
        | error f => rw [ht] at h; cases h
        | ok p =>
          obtain ⟨n, u⟩ := p
          rw [ht] at h
          cases h
          have := length_of_readHex ht
          simp only [List.length_cons]; omega
      · cases h

/-! ## 2. Strings -/

/-- Reads a string from behind its opening quote; what follows the closing one is left. -/
def readText : List Char → Except Fault (List Char × List Char)
  | [] => .error (.placed .endInText 0)
  | c :: r =>
    if c = '"' then .ok ([], r)
    else if c = '\\' then
      match _h : readEscape r with
      | .error f => .error f
      | .ok (d, r) => (readText r).map fun (t, rest) => (d :: t, rest)
    else if c.toNat < 0x20 then .error (.here .controlCharacter r)
    else (readText r).map fun (t, rest) => (c :: t, rest)
termination_by s => s.length
decreasing_by
  · have := length_of_readEscape _h; simp only [List.length_cons]; omega
  · simp

/-- Passes over a string from behind its opening quote. -/
def skipText : List Char → Except Fault (List Char)
  | [] => .error (.placed .endInText 0)
  | c :: r =>
    if c = '"' then .ok r
    else if c = '\\' then
      match _h : skipEscape r with
      | .error f => .error f
      | .ok r => skipText r
    else if c.toNat < 0x20 then .error (.here .controlCharacter (c :: r))
    else skipText r
termination_by s => s.length
decreasing_by
  · have := length_of_skipEscape _h; simp only [List.length_cons]; omega
  · simp

theorem length_of_readText {s t r : List Char} (h : readText s = .ok (t, r)) :
    r.length < s.length := by
  fun_induction readText s generalizing t with
  | case1 => cases h
  | case2 => cases h; simp
  | case3 => cases h
  | case4 _ _ _ he _ ih =>
    obtain ⟨⟨t', r'⟩, hr, h⟩ := map_eq_ok.1 h
    cases h
    have := ih hr
    have := length_of_readEscape he
    simp only [List.length_cons]; omega
  | case5 => cases h
  | case6 _ _ _ _ _ ih =>
    obtain ⟨⟨t', r'⟩, hr, h⟩ := map_eq_ok.1 h
    cases h
    have := ih hr
    simp only [List.length_cons]; omega

theorem length_of_skipText {s r : List Char} (h : skipText s = .ok r) :
    r.length < s.length := by
  fun_induction skipText s with
  | case1 => cases h
  | case2 => cases h; simp
  | case3 => cases h
  | case4 _ _ he _ ih =>
    have := ih h
    have := length_of_skipEscape he
    simp only [List.length_cons]; omega
  | case5 => cases h
  | case6 _ _ _ _ _ ih =>
    have := ih h
    simp only [List.length_cons]; omega

/-! ## 3. Printing -/

/-- A hexadecimal digit in lower case. -/
def hexChar (n : Nat) : Char := Char.ofNat (if n < 10 then 48 + n else 87 + n)

/-- One character inside a printed string. -/
def printChar (c : Char) : List Char :=
  if c = '"' then ['\\', '"']
  else if c = '\\' then ['\\', '\\']
  else if c = '\x08' then ['\\', 'b']
  else if c = '\x0c' then ['\\', 'f']
  else if c = '\n' then ['\\', 'n']
  else if c = '\r' then ['\\', 'r']
  else if c = '\t' then ['\\', 't']
  else if c.toNat < 0x20 then
    ['\\', 'u', '0', '0', hexChar (c.toNat / 16), hexChar (c.toNat % 16)]
  else [c]

/-- A string in quotes. -/
def printText (s : List Char) : List Char := '"' :: s.flatMap printChar ++ ['"']

theorem readEscape_letter {c d : Char} (h : ofLetter? c = some d) (r : List Char) :
    readEscape (c :: r) = .ok (d, r) := by
  simp [readEscape, h]

theorem readText_escape {s r : List Char} {d : Char} (h : readEscape s = .ok (d, r)) :
    readText ('\\' :: s) = (readText r).map fun (t, rest) => (d :: t, rest) := by
  rw [readText]
  simp only [show ('\\' : Char) ≠ '"' by decide, if_false, if_true]
  split
  · next f hf => rw [h] at hf; cases hf
  · next d' r' hf => rw [h] at hf; cases hf; rfl

/-- The characters that are printed by number read back from it. -/
theorem readEscape_control : ∀ n : Fin 0x20, ∀ r : List Char,
    readEscape ('u' :: '0' :: '0' :: hexChar (n.val / 16) :: hexChar (n.val % 16) :: r) =
      .ok (Char.ofNat n.val, r) := by
  intro n r
  have : ∀ n : Fin 0x20, hexDigit? (hexChar (n.val / 16)) = some (n.val / 16) ∧
      hexDigit? (hexChar (n.val % 16)) = some (n.val % 16) := by decide
  obtain ⟨h₁, h₂⟩ := this n
  have h₀ : hexDigit? '0' = some 0 := by decide
  have hu : ofLetter? 'u' = none := by decide
  have hn := n.isLt
  have hv : ((0 * 16 + 0) * 16 + n.val / 16) * 16 + n.val % 16 = n.val := by omega
  have hx : readHex ('0' :: '0' :: hexChar (n.val / 16) :: hexChar (n.val % 16) :: r) =
      .ok (n.val, r) := by
    simp only [readHex, h₀, h₁, h₂, hv]
  have h₃ : ¬ (0xdc00 ≤ n.val ∧ n.val ≤ 0xdfff) := by omega
  have h₄ : ¬ (0xd800 ≤ n.val ∧ n.val ≤ 0xdbff) := by omega
  simp only [readEscape, hu, if_true, readUnicode, hx, bind, Except.bind, h₃, h₄, if_false]

theorem readText_printChar (c : Char) (s : List Char) :
    readText (printChar c ++ s) = (readText s).map fun (t, rest) => (c :: t, rest) := by
  unfold printChar
  split
  · next h => subst h; exact readText_escape (readEscape_letter rfl s)
  split
  · next h => subst h; exact readText_escape (readEscape_letter rfl s)
  split
  · next h => subst h; exact readText_escape (readEscape_letter rfl s)
  split
  · next h => subst h; exact readText_escape (readEscape_letter rfl s)
  split
  · next h => subst h; exact readText_escape (readEscape_letter rfl s)
  split
  · next h => subst h; exact readText_escape (readEscape_letter rfl s)
  split
  · next h => subst h; exact readText_escape (readEscape_letter rfl s)
  split
  · next h =>
    have := readEscape_control ⟨c.toNat, h⟩ s
    simp only [Char.ofNat_toNat] at this
    exact readText_escape this
  · next hq hb _ _ _ _ _ hc =>
    simp only [List.cons_append, List.nil_append]
    rw [readText]
    simp [hq, hb, hc]

/-- Reading undoes printing, whatever follows. -/
theorem readText_printText (s rest : List Char) :
    readText (s.flatMap printChar ++ '"' :: rest) = .ok (s, rest) := by
  induction s with
  | nil => rw [List.flatMap_nil, List.nil_append, readText]; simp
  | cons c s ih =>
    rw [List.flatMap_cons, List.append_assoc, readText_printChar, ih]
    rfl

end DialogueExport.Json
