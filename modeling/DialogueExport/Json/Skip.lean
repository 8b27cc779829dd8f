import DialogueExport.Json.Number
import DialogueExport.Json.Text

/-!
# Values that are passed over

The value of a field that no type knows is passed over: it must be well formed, and it may be
nested as deeply as it likes, since the open brackets are kept in a list.

The walk is in one of three states: a value must come (`value`), a bracket has just been opened
(`opened`), or a value has just ended (`ended`).  Every step takes a character, except that an
opened list that is not closed at once goes on to its first value; so the walk ends
(`length_of_skipFrom`).
-/

namespace DialogueExport.Json

/-! ## 1. Tokens -/

/-- Takes the rest of a literal.  A character that differs is taken. -/
def readLiteral : List Char → List Char → Except Fault (List Char)
  | [], s => .ok s
  | _ :: _, [] => .error (.here .endInValue [])
  | e :: es, c :: r => if c = e then readLiteral es r else .error (.next .noLiteral (c :: r))

theorem length_of_readLiteral : ∀ {es s r : List Char}, readLiteral es s = .ok r →
    r.length ≤ s.length
  | [], s, r, h => by cases h; exact Nat.le_refl _
  | _ :: _, [], r, h => by cases h
  | e :: es, c :: s, r, h => by
    unfold readLiteral at h
    split at h
    · have := length_of_readLiteral h
      simp only [List.length_cons]; omega
    · cases h

/-- Takes the colon behind a key. -/
def readColon (s : List Char) : Except Fault (List Char) :=
  match skipSpace s with
  | [] => .error (.here .endInObject [])
  | c :: r => if c = ':' then .ok r else .error (.next .noColon (c :: r))

theorem length_of_readColon {s r : List Char} (h : readColon s = .ok r) :
    r.length < s.length := by
  unfold readColon at h
  split at h
  · cases h
  · next c t hs =>
    split at h
    · cases h; exact length_lt_of_skipSpace hs
    · cases h

/-- Passes over a key and its colon. -/
def skipKey (s : List Char) : Except Fault (List Char) :=
  match skipSpace s with
  | [] => .error (.here .endInObject [])
  | c :: r =>
    if c = '"' then skipText r >>= readColon else .error (.next .keyNotText (c :: r))

theorem length_of_skipKey {s r : List Char} (h : skipKey s = .ok r) : r.length < s.length := by
  unfold skipKey at h
  split at h
  · cases h
  · next c t hs =>
    split at h
    · obtain ⟨u, hu, h⟩ := bind_eq_ok.1 h
      have := length_lt_of_skipSpace hs
      have := length_of_skipText hu
      have := length_of_readColon h
      omega
    · cases h

/-- Passes over a value without brackets that starts with `c`. -/
def skipScalar (c : Char) (r : List Char) : Except Fault (List Char) :=
  if c = '"' then skipText r
  else if c = 'n' then readLiteral ['u', 'l', 'l'] r
  else if c = 't' then readLiteral ['r', 'u', 'e'] r
  else if c = 'f' then readLiteral ['a', 'l', 's', 'e'] r
  else if c = '-' then skipNumber r
  else if isDigit c then skipNumber (c :: r)
  else .error (.next .noValue (c :: r))

theorem length_of_skipScalar {c : Char} {s r : List Char} (h : skipScalar c s = .ok r) :
    r.length ≤ s.length := by
  unfold skipScalar at h
  split at h
  · exact Nat.le_of_lt (length_of_skipText h)
  split at h
  · exact length_of_readLiteral h
  split at h
  · exact length_of_readLiteral h
  split at h
  · exact length_of_readLiteral h
  split at h
  · exact Nat.le_of_lt (length_of_skipNumber h)
  split at h
  · have := length_of_skipNumber h
    simp only [List.length_cons] at this; omega
  · cases h

/-! ## 2. The walk -/

/-- The two kinds of brackets. -/
inductive Bracket where
  | list
  | object
deriving DecidableEq

/-- What the walk waits for. -/
inductive Wait where
  | value
  /-- The first element or the end of a bracket just opened. -/
  | opened (b : Bracket)
  | ended
deriving DecidableEq

/-- One more for the only state that may be left without taking a character. -/
def Wait.rank : Wait → Nat
  | opened _ => 1
  | _ => 0

/-- Walks on to the end of the outermost value; `outer` are the brackets around the place. -/
def skipFrom (wait : Wait) (outer : List Bracket) (s : List Char) : Except Fault (List Char) :=
  match wait with
  | .value =>
    match _hs : skipSpace s with
    | [] => .error (.here .endInValue [])
    | c :: r =>
      if c = '[' then skipFrom (.opened .list) outer r
      else if c = '\x7b' then skipFrom (.opened .object) outer r
      else
        match _hr : skipScalar c r with
        | .error f => .error f
        | .ok r => skipFrom .ended outer r
  | .opened .list =>
    match _hs : skipSpace s with
    | [] => .error (.here .endInList [])
    | c :: r =>
      if c = ']' then skipFrom .ended outer r
      else skipFrom .value (.list :: outer) (c :: r)
  | .opened .object =>
    match _hs : skipSpace s with
    | [] => .error (.here .endInObject [])
    | c :: r =>
      if c = '\x7d' then skipFrom .ended outer r
      else
        match _hr : skipKey (c :: r) with
        | .error f => .error f
        | .ok r => skipFrom .value (.object :: outer) r
  | .ended =>
    match outer with
    | [] => .ok s
    | .list :: outer =>
      match _hs : skipSpace s with
      | [] => .error (.here .endInList [])
      | c :: r =>
        if c = ']' then skipFrom .ended outer r
        else if c = ',' then skipFrom .value (.list :: outer) r
        else .error (.next .noCommaOrListEnd (c :: r))
    | .object :: outer =>
      match _hs : skipSpace s with
      | [] => .error (.here .endInObject [])
      | c :: r =>
        if c = '\x7d' then skipFrom .ended outer r
        else if c = ',' then
          match _hr : skipKey r with
          | .error f => .error f
          | .ok r => skipFrom .value (.object :: outer) r
        else .error (.next .noCommaOrObjectEnd (c :: r))
termination_by 2 * s.length + wait.rank
decreasing_by
  all_goals have hl := length_lt_of_skipSpace _hs
  all_goals simp only [Wait.rank, List.length_cons]
  · omega
  · omega
  · have := length_of_skipScalar _hr; omega
  · omega
  · omega
  · omega
  · have := length_of_skipKey _hr
    simp only [List.length_cons] at this; omega
  · omega
  · omega
  · omega
  · have := length_of_skipKey _hr; omega

/-- Passes over one value. -/
def skipValue (s : List Char) : Except Fault (List Char) := skipFrom .value [] s

theorem length_of_skipFrom {wait : Wait} {outer : List Bracket} {s r : List Char}
    (h : skipFrom wait outer s = .ok r) : r.length ≤ s.length := by
  fun_induction skipFrom wait outer s with
  | case1 | case4 | case6 | case9 | case11 | case14 | case17 | case18 | case20 | case22 => cases h
  | case13 => cases h; exact Nat.le_refl _
  | case2 _ _ _ hs ih | case3 _ _ _ hs _ ih | case7 _ _ _ hs ih | case10 _ _ _ hs ih
  | case15 _ _ _ hs ih | case16 _ _ _ hs _ ih | case19 _ _ _ hs ih =>
    have := ih h
    have := length_lt_of_skipSpace hs
    omega
  | case8 _ _ _ _ hs _ ih =>
    have := ih h
    have := length_lt_of_skipSpace hs
    simp only [List.length_cons] at *
    omega
  | case5 _ _ _ _ hs _ _ _ hr ih =>
    have := ih h
    have := length_lt_of_skipSpace hs
    have := length_of_skipScalar hr
    omega
  | case12 _ _ _ _ hs _ _ hr ih =>
    have := ih h
    have := length_lt_of_skipSpace hs
    have := length_of_skipKey hr
    simp only [List.length_cons] at *
    omega
  | case21 _ _ _ _ hr hs _ ih =>
    have := ih h
    have := length_lt_of_skipSpace hs
    have := length_of_skipKey hr
    omega

theorem length_of_skipValue {s r : List Char} (h : skipValue s = .ok r) :
    r.length ≤ s.length :=
  length_of_skipFrom h

end DialogueExport.Json
