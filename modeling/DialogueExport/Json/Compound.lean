import DialogueExport.Json.Reader

/-!
# Lists, tables and records

Readers for values with brackets.  What all of them share:

* `nextElement` and `nextKey` go to the next part or find that the bracket closes;
* `enclosed` closes the bracket.  It looks for the closing bracket also after a fault inside,
  because a fault that has no place yet gets the one behind it (`Fault.floating`).

A record may be written as an object or as the list of its fields in the order of their
declaration.  Its reader is described by a `Shape`: a draft is filled field by field, in any
order, and finished at the end.
-/

namespace DialogueExport.Json

variable {α σ : Type}

/-! ## 1. Between the parts -/

/-- Goes to the next element of a list, or to its closing bracket (`none`). -/
def nextElement (first : Bool) (s : List Char) : Except Fault (Option (List Char)) :=
  match skipSpace s with
  | [] => .error (.here .endInList [])
  | c :: r =>
    if c = ']' then .ok none
    else if first then .ok (some (c :: r))
    else if c = ',' then
      match skipSpace r with
      | [] => .error (.here .endInValue [])
      | d :: t => if d = ']' then .error (.next .commaAtEnd (d :: t)) else .ok (some (d :: t))
    else .error (.next .noCommaOrListEnd (c :: r))

/-- Goes behind the opening quote of the next key of an object, or to its closing bracket
(`none`). -/
def nextKey (first : Bool) (s : List Char) : Except Fault (Option (List Char)) :=
  match skipSpace s with
  | [] => .error (.here .endInObject [])
  | c :: r =>
    if c = '\x7d' then .ok none
    else if first then
      if c = '"' then .ok (some r) else .error (.next .keyNotText (c :: r))
    else if c = ',' then
      match skipSpace r with
      | [] => .error (.here .endInValue [])
      | d :: t =>
        if d = '"' then .ok (some t)
        else if d = '\x7d' then .error (.next .commaAtEnd (d :: t))
        else .error (.next .keyNotText (d :: t))
    else .error (.next .noCommaOrObjectEnd (c :: r))

theorem length_of_nextElement {first : Bool} {s r : List Char}
    (h : nextElement first s = .ok (some r)) : r.length ≤ s.length := by
  unfold nextElement at h
  split at h
  · cases h
  · next c t hs =>
    have := length_lt_of_skipSpace hs
    split at h
    · cases h
    split at h
    · cases h; simp only [List.length_cons]; omega
    split at h
    · split at h
      · cases h
      · next d u hu =>
        have := length_lt_of_skipSpace hu
        split at h
        · cases h
        · cases h; simp only [List.length_cons]; omega
    · cases h

theorem length_of_nextKey {first : Bool} {s r : List Char}
    (h : nextKey first s = .ok (some r)) : r.length < s.length := by
  unfold nextKey at h
  split at h
  · cases h
  · next c t hs =>
    have := length_lt_of_skipSpace hs
    split at h
    · cases h
    split at h
    · split at h
      · cases h; omega
      · cases h
    split at h
    · split at h
      · cases h
      · next d u hu =>
        have := length_lt_of_skipSpace hu
        split at h
        · cases h; omega
        split at h
        · cases h
        · cases h
    · cases h

/-! ## 2. Closing a bracket -/

/-- The end of a bracket: what follows it, or what stands there instead and how far the text
was read to see that. -/
inductive Closing where
  | closed (rest : List Char)
  | refused (fault : Fault) (rest : List Char)

/-- The text behind what was read. -/
def Closing.rest : Closing → List Char
  | closed rest => rest
  | refused _ rest => rest

/-- Closes a list. -/
def closeList (s : List Char) : Closing :=
  match skipSpace s with
  | [] => .refused (.here .endInList []) []
  | c :: r =>
    if c = ']' then .closed r
    else if c = ',' then
      let t := skipSpace r
      .refused (.next (if t.head? = some ']' then .commaAtEnd else .moreCharacters) t) t
    else .refused (.next .moreCharacters (c :: r)) (c :: r)

/-- Closes an object. -/
def closeObject (s : List Char) : Closing :=
  match skipSpace s with
  | [] => .refused (.here .endInObject []) []
  | c :: r =>
    if c = '\x7d' then .closed r
    else if c = ',' then .refused (.next .commaAtEnd (c :: r)) (c :: r)
    else .refused (.next .moreCharacters (c :: r)) (c :: r)

/-- Closes the bracket around what was read.  A fault inside stays; one without a place gets
the place behind the closing bracket. -/
def enclosed (close : List Char → Closing) (inside : Except Fault (α × List Char)) :
    Except Fault (α × List Char) :=
  match inside with
  | .ok (a, s) =>
    match close s with
    | .closed rest => .ok (a, rest)
    | .refused fault _ => .error fault
  | .error (.placed reason left) => .error (.placed reason left)
  | .error (.floating reason rest) => .error (.here reason (close rest).rest)

theorem length_of_closeList {s r : List Char} (h : closeList s = .closed r) :
    r.length < s.length := by
  unfold closeList at h
  split at h
  · cases h
  · next c t hs =>
    split at h
    · cases h; exact length_lt_of_skipSpace hs
    split at h
    · cases h
    · cases h

theorem length_of_closeObject {s r : List Char} (h : closeObject s = .closed r) :
    r.length < s.length := by
  unfold closeObject at h
  split at h
  · cases h
  · next c t hs =>
    split at h
    · cases h; exact length_lt_of_skipSpace hs
    split at h
    · cases h
    · cases h

theorem enclosed_eq_ok {close : List Char → Closing} {inside : Except Fault (α × List Char)}
    {a : α} {rest : List Char} :
    enclosed close inside = .ok (a, rest) ↔ ∃ s, inside = .ok (a, s) ∧ close s = .closed rest := by
  constructor
  · intro h
    unfold enclosed at h
    split at h
    · next b s =>
      split at h
      · next t ht => cases h; exact ⟨s, rfl, ht⟩
      · cases h
    · cases h
    · cases h
  · rintro ⟨s, rfl, hs⟩
    simp [enclosed, hs]

/-! ## 3. Lists and tables -/

/-- Reads the elements of a list up to its closing bracket. -/
def readElements (value : Reader α) (first : Bool) (s : List Char) :
    Except Fault (List α × List Char) :=
  match _h : nextElement first s with
  | .error f => .error f
  | .ok none => .ok ([], s)
  | .ok (some r) =>
    match _hv : value.run r with
    | .error f => .error f
    | .ok (a, r) => (readElements value false r).map fun (l, rest) => (a :: l, rest)
termination_by s.length
decreasing_by
  have := length_of_nextElement _h
  have := value.shrinks _hv
  omega

/-- Reads the entries of an object up to its closing bracket. -/
def readEntries (value : Reader α) (first : Bool) (s : List Char) :
    Except Fault (List (String × α) × List Char) :=
  match _h : nextKey first s with
  | .error f => .error f
  | .ok none => .ok ([], s)
  | .ok (some r) =>
    match _hk : readText r with
    | .error f => .error f
    | .ok (key, r) =>
      match _hc : readColon r with
      | .error f => .error f
      | .ok r =>
        match _hv : value.run r with
        | .error f => .error f
        | .ok (a, r) =>
          (readEntries value false r).map fun (l, rest) => ((String.ofList key, a) :: l, rest)
termination_by s.length
decreasing_by
  have := length_of_nextKey _h
  have := length_of_readText _hk
  have := length_of_readColon _hc
  have := value.shrinks _hv
  omega

theorem length_of_readElements {value : Reader α} {first : Bool} {s r : List Char} {l : List α}
    (h : readElements value first s = .ok (l, r)) : r.length ≤ s.length := by
  fun_induction readElements value first s generalizing l with
  | case1 => cases h
  | case2 => cases h; exact Nat.le_refl _
  | case3 => cases h
  | case4 _ _ _ hn _ _ hv ih =>
    obtain ⟨⟨l', r'⟩, hr, h⟩ := map_eq_ok.1 h
    cases h
    have := ih hr
    have := length_of_nextElement hn
    have := value.shrinks hv
    omega

theorem length_of_readEntries {value : Reader α} {first : Bool} {s r : List Char}
    {l : List (String × α)} (h : readEntries value first s = .ok (l, r)) :
    r.length ≤ s.length := by
  fun_induction readEntries value first s generalizing l with
  | case1 => cases h
  | case2 => cases h; exact Nat.le_refl _
  | case3 | case4 | case5 => cases h
  | case6 _ _ _ hn _ _ hk _ hc _ _ hv ih =>
    obtain ⟨⟨l', r'⟩, hr, h⟩ := map_eq_ok.1 h
    cases h
    have := ih hr
    have := length_of_nextKey hn
    have := length_of_readText hk
    have := length_of_readColon hc
    have := value.shrinks hv
    omega

/-- Reads a list of values. -/
def readList (value : Reader α) (s : List Char) : Except Fault (List α × List Char) :=
  match skipSpace s with
  | [] => .error (mismatch .list [])
  | c :: r =>
    if c = '[' then enclosed closeList (readElements value true r)
    else .error (mismatch .list (c :: r))

theorem length_of_readList {value : Reader α} {s r : List Char} {l : List α}
    (h : readList value s = .ok (l, r)) : r.length < s.length := by
  unfold readList at h
  split at h
  · cases h
  · next c t hs =>
    split at h
    · obtain ⟨u, hu, hc⟩ := enclosed_eq_ok.1 h
      have := length_lt_of_skipSpace hs
      have := length_of_readElements hu
      have := length_of_closeList hc
      omega
    · cases h

/-- Reads the entries of an object. -/
def readObject (value : Reader α) (s : List Char) :
    Except Fault (List (String × α) × List Char) :=
  match skipSpace s with
  | [] => .error (mismatch .table [])
  | c :: r =>
    if c = '\x7b' then enclosed closeObject (readEntries value true r)
    else .error (mismatch .table (c :: r))

theorem length_of_readObject {value : Reader α} {s r : List Char} {l : List (String × α)}
    (h : readObject value s = .ok (l, r)) : r.length < s.length := by
  unfold readObject at h
  split at h
  · cases h
  · next c t hs =>
    split at h
    · obtain ⟨u, hu, hc⟩ := enclosed_eq_ok.1 h
      have := length_lt_of_skipSpace hs
      have := length_of_readEntries hu
      have := length_of_closeObject hc
      omega
    · cases h

namespace Reader

/-- A list of values. -/
def list (value : Reader α) : Reader (List α) := ⟨readList value, length_of_readList⟩

/-- The entries of an object in the order of the text, with repeated keys. -/
def entries (value : Reader α) : Reader (List (String × α)) :=
  ⟨readObject value, length_of_readObject⟩

end Reader

/-! ## 4. Records -/

/-- A field of a record under construction. -/
structure RecordField (σ : Type) where
  name : String
  /-- Whether the draft has it already. -/
  isSet : σ → Bool
  /-- Reads its value and writes it into the draft. -/
  read : Reader (σ → σ)

/-- A type of records: how its values are drafted and finished. -/
structure Shape (σ α : Type) where
  /-- The name of the type in messages. -/
  name : String
  /-- The fields in the order of their declaration. -/
  fields : List (RecordField σ)
  /-- The draft without any field. -/
  start : σ
  /-- The value of a draft, or the first field in declaration order that it must have and
  lacks. -/
  finish : σ → Except String α

/-- Reads fields by name up to the closing bracket.  A field that the type does not have is
passed over. -/
def readNamed (fields : List (RecordField σ)) (first : Bool) (draft : σ) (s : List Char) :
    Except Fault (σ × List Char) :=
  match _h : nextKey first s with
  | .error f => .error f
  | .ok none => .ok (draft, s)
  | .ok (some r) =>
    match _hk : readText r with
    | .error f => .error f
    | .ok (key, r) =>
      match fields.find? fun f => f.name = String.ofList key with
      | some field =>
        if field.isSet draft then .error (.floating (.repeatedField field.name) r)
        else
          match _hc : readColon r with
          | .error f => .error f
          | .ok r =>
            match _hv : field.read.run r with
            | .error f => .error f
            | .ok (write, r) => readNamed fields false (write draft) r
      | none =>
        match _hc : readColon r with
        | .error f => .error f
        | .ok r =>
          match _hv : skipValue r with
          | .error f => .error f
          | .ok r => readNamed fields false draft r
termination_by s.length
decreasing_by
  · have := length_of_nextKey _h
    have := length_of_readText _hk
    have := length_of_readColon _hc
    have := field.read.shrinks _hv
    omega
  · have := length_of_nextKey _h
    have := length_of_readText _hk
    have := length_of_readColon _hc
    have := length_of_skipValue _hv
    omega

/-- Reads fields by place up to the closing bracket or to the last field, and counts them. -/
def readPlaced : List (RecordField σ) → Bool → σ → List Char → Except Fault ((Nat × σ) × List Char)
  | [], _, draft, s => .ok ((0, draft), s)
  | field :: fields, first, draft, s =>
    match nextElement first s with
    | .error f => .error f
    | .ok none => .ok ((0, draft), s)
    | .ok (some r) =>
      match field.read.run r with
      | .error f => .error f
      | .ok (write, r) =>
        (readPlaced fields false (write draft) r).map
          fun ((n, draft), rest) => ((n + 1, draft), rest)

namespace Shape

/-- Finishes a record whose fields have names. -/
def finishNamed (shape : Shape σ α) (draft : σ) (rest : List Char) :
    Except Fault (α × List Char) :=
  match shape.finish draft with
  | .ok a => .ok (a, rest)
  | .error name => .error (.floating (.missingField name) rest)

/-- Finishes a record whose first `n` fields were read. -/
def finishPlaced (shape : Shape σ α) (n : Nat) (draft : σ) (rest : List Char) :
    Except Fault (α × List Char) :=
  match shape.finish draft with
  | .ok a => .ok (a, rest)
  | .error _ => .error (.floating (.tooShort n shape.name shape.fields.length) rest)

/-- Reads the fields of a record behind the opening bracket of an object. -/
def readByName (shape : Shape σ α) (s : List Char) : Except Fault (α × List Char) := do
  let (draft, rest) ← readNamed shape.fields true shape.start s
  shape.finishNamed draft rest

/-- Reads the fields of a record behind the opening bracket of a list. -/
def readByPlace (shape : Shape σ α) (s : List Char) : Except Fault (α × List Char) := do
  let ((n, draft), rest) ← readPlaced shape.fields true shape.start s
  shape.finishPlaced n draft rest

theorem finishNamed_eq_ok {shape : Shape σ α} {draft : σ} {s r : List Char} {a : α} :
    shape.finishNamed draft s = .ok (a, r) ↔ shape.finish draft = .ok a ∧ r = s := by
  unfold finishNamed
  constructor
  · intro h
    split at h
    · next b hb => cases h; exact ⟨hb, rfl⟩
    · cases h
  · rintro ⟨ha, rfl⟩
    simp [ha]

theorem finishPlaced_eq_ok {shape : Shape σ α} {n : Nat} {draft : σ} {s r : List Char} {a : α} :
    shape.finishPlaced n draft s = .ok (a, r) ↔ shape.finish draft = .ok a ∧ r = s := by
  unfold finishPlaced
  constructor
  · intro h
    split at h
    · next b hb => cases h; exact ⟨hb, rfl⟩
    · cases h
  · rintro ⟨ha, rfl⟩
    simp [ha]

/-- Reads a record. -/
def read (shape : Shape σ α) (s : List Char) : Except Fault (α × List Char) :=
  match skipSpace s with
  | [] => .error (mismatch (.record shape.name) [])
  | c :: r =>
    if c = '\x7b' then enclosed closeObject (shape.readByName r)
    else if c = '[' then enclosed closeList (shape.readByPlace r)
    else .error (mismatch (.record shape.name) (c :: r))

end Shape

theorem length_of_readNamed {fields : List (RecordField σ)} {first : Bool} {draft draft' : σ}
    {s r : List Char} (h : readNamed fields first draft s = .ok (draft', r)) :
    r.length ≤ s.length := by
  fun_induction readNamed fields first draft s with
  | case1 | case3 | case4 | case5 | case6 | case8 | case9 => cases h
  | case2 => cases h; exact Nat.le_refl _
  | case7 _ _ _ _ hn _ _ hk field _ _ _ hc _ _ hv ih =>
    have := ih h
    have := length_of_nextKey hn
    have := length_of_readText hk
    have := length_of_readColon hc
    have := field.read.shrinks hv
    omega
  | case10 _ _ _ _ hn _ _ hk _ _ hc _ hv ih =>
    have := ih h
    have := length_of_nextKey hn
    have := length_of_readText hk
    have := length_of_readColon hc
    have := length_of_skipValue hv
    omega

theorem length_of_readPlaced : ∀ {fields : List (RecordField σ)} {first : Bool} {draft : σ}
    {p : Nat × σ} {s r : List Char}, readPlaced fields first draft s = .ok (p, r) →
    r.length ≤ s.length
  | [], _, _, _, _, _, h => by cases h; exact Nat.le_refl _
  | field :: fields, first, draft, p, s, r, h => by
    unfold readPlaced at h
    split at h
    · cases h
    · cases h; exact Nat.le_refl _
    · next t ht =>
      split at h
      · cases h
      · next write u hu =>
        obtain ⟨⟨⟨n, d⟩, v⟩, hv, h⟩ := map_eq_ok.1 h
        cases h
        have := length_of_readPlaced hv
        have := length_of_nextElement ht
        have := field.read.shrinks hu
        omega

theorem Shape.length_of_read {shape : Shape σ α} {s r : List Char} {a : α}
    (h : shape.read s = .ok (a, r)) : r.length < s.length := by
  unfold Shape.read at h
  split at h
  · cases h
  · next c t hs =>
    have := length_lt_of_skipSpace hs
    split at h
    · obtain ⟨u, hu, hc⟩ := enclosed_eq_ok.1 h
      obtain ⟨⟨draft, v⟩, hv, hu⟩ := bind_eq_ok.1 hu
      have := length_of_readNamed hv
      have := length_of_closeObject hc
      obtain ⟨-, rfl⟩ := Shape.finishNamed_eq_ok.1 hu
      omega
    split at h
    · obtain ⟨u, hu, hc⟩ := enclosed_eq_ok.1 h
      obtain ⟨⟨⟨n, draft⟩, v⟩, hv, hu⟩ := bind_eq_ok.1 hu
      have := length_of_readPlaced hv
      have := length_of_closeList hc
      obtain ⟨-, rfl⟩ := Shape.finishPlaced_eq_ok.1 hu
      omega
    · cases h

/-- A record, as an object or as the list of its fields. -/
def Reader.record (shape : Shape σ α) : Reader α := ⟨shape.read, shape.length_of_read⟩

end DialogueExport.Json
