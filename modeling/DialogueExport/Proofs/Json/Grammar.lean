import DialogueExport.Proofs.Json.Steps

/-!
# The grammar of documents

What a well-formed text is, said without any reader.  A `Tree` is a value apart from its layout:
tokens as they are written, lists, and objects with their members in order.  `Spells t s` says that
`s` is a way to write `t`: between the tokens any white space may stand, and nothing else differs.
`Spelled` allows white space around it too, which makes it a whole document.

The tokens carry the proof that they are well formed (`Body`, `Word`), so every tree can be written;
`Tree.compact` writes it without white space.
-/

namespace DialogueExport.Json

/-! ## 1. Tokens -/

/-- What stands between the quotes of a string.  An escape by number need not be a character: half
of a pair may stand alone. -/
inductive IsBody : List Char → Prop
  | nil : IsBody []
  | plain {c : Char} {s : List Char} (quote : c ≠ '"') (backslash : c ≠ '\\')
      (control : 0x20 ≤ c.toNat) (tail : IsBody s) : IsBody (c :: s)
  | letter {c : Char} {s : List Char} (known : (ofLetter? c).isSome) (tail : IsBody s) :
      IsBody ('\\' :: c :: s)
  | number {a b c d : Char} {s : List Char}
      (digits : ∀ x ∈ [a, b, c, d], (hexDigit? x).isSome) (tail : IsBody s) :
      IsBody ('\\' :: 'u' :: a :: b :: c :: d :: s)

/-- At least one digit, and nothing else. -/
def IsDigits (ds : List Char) : Prop := ds ≠ [] ∧ ∀ d ∈ ds, isDigit d = true

/-- The digits in front of the point, of which only a single one may be a leading zero. -/
def IsWhole (ds : List Char) : Prop := IsDigits ds ∧ (ds.head? = some '0' → ds = ['0'])

def IsFraction (s : List Char) : Prop := s = [] ∨ ∃ ds, IsDigits ds ∧ s = '.' :: ds

def IsExponent (s : List Char) : Prop :=
  s = [] ∨ ∃ mark sign ds, isExponentMark mark = true ∧ sign ∈ [[], ['+'], ['-']] ∧ IsDigits ds ∧
    s = mark :: (sign ++ ds)

/-- A number from behind its minus sign, if it has one. -/
def IsUnsigned (s : List Char) : Prop :=
  ∃ whole fraction exponent, s = whole ++ (fraction ++ exponent) ∧ IsWhole whole ∧
    IsFraction fraction ∧ IsExponent exponent

/-- A literal or a number. -/
inductive IsWord : List Char → Prop
  | nullWord : IsWord ['n', 'u', 'l', 'l']
  | trueWord : IsWord ['t', 'r', 'u', 'e']
  | falseWord : IsWord ['f', 'a', 'l', 's', 'e']
  | negative {s : List Char} (unsigned : IsUnsigned s) : IsWord ('-' :: s)
  | unsigned {s : List Char} (unsigned : IsUnsigned s) : IsWord s

/-- A string as it is written, without its quotes. -/
structure Body where
  chars : List Char
  valid : IsBody chars

/-- A literal or a number as it is written. -/
structure Word where
  chars : List Char
  valid : IsWord chars

/-- The text that a string stands for; one with half of a pair stands for none. -/
def Body.text? (b : Body) : Option String :=
  (readText (b.chars ++ ['"'])).toOption.map fun p => String.ofList p.1

/-! ## 2. Trees -/

/-- A value apart from its layout. -/
inductive Tree where
  | word (w : Word)
  | text (b : Body)
  | list (elements : List Tree)
  /-- The members in their order, with repeated keys. -/
  | object (members : List (Body × Tree))

namespace Tree

/-- The literal `null`. -/
def null : Tree := .word ⟨_, .nullWord⟩

theorem sizeOf_lt_of_mem_elements {t : Tree} {ts : List Tree} (h : t ∈ ts) :
    sizeOf t < sizeOf (list ts) := by
  have := List.sizeOf_lt_of_mem h
  rw [list.sizeOf_spec]
  omega

theorem sizeOf_lt_of_mem_members {m : Body × Tree} {ms : List (Body × Tree)} (h : m ∈ ms) :
    sizeOf m.2 < sizeOf (object ms) := by
  obtain ⟨key, t⟩ := m
  have := List.sizeOf_lt_of_mem h
  rw [Prod.mk.sizeOf_spec] at this
  rw [object.sizeOf_spec]
  dsimp only
  omega

/-- What holds of a tree as soon as it holds of its parts, holds of every tree. -/
@[elab_as_elim]
theorem induct {motive : Tree → Prop} (word : ∀ w, motive (.word w)) (text : ∀ b, motive (.text b))
    (list : ∀ ts, (∀ t ∈ ts, motive t) → motive (.list ts))
    (object : ∀ ms : List (Body × Tree), (∀ m ∈ ms, motive m.2) → motive (.object ms)) :
    ∀ t, motive t
  | .word w => word w
  | .text b => text b
  | .list ts => list ts fun t _ => induct word text list object t
  | .object ms => object ms fun m _ => induct word text list object m.2
termination_by t => sizeOf t
decreasing_by
  · exact sizeOf_lt_of_mem_elements ‹_›
  · exact sizeOf_lt_of_mem_members ‹_›

end Tree

/-! ## 3. Spellings -/

/-- The parts of a bracket, from behind the opening one or from behind another part on, up to the
closing one. -/
inductive Parts {α : Type} (part : α → List Char → Prop) (close : Char) :
    Bool → List α → List Char → Prop
  | nil {first : Bool} {w : List Char} (gap : Gap w) : Parts part close first [] (w ++ [close])
  | cons {first : Bool} {a : α} {l : List α} {v w p s : List Char} (before : Gap v)
      (behind : Gap w) (head : part a p) (tail : Parts part close false l s) :
      Parts part close first (a :: l) (v ++ (separator first ++ (w ++ (p ++ s))))

/-- A member of an object: its key, a colon and its value. -/
inductive Member (value : Tree → List Char → Prop) : Body × Tree → List Char → Prop
  | mk {key : Body} {t : Tree} {v w p : List Char} (before : Gap v) (behind : Gap w)
      (spelled : value t p) :
      Member value (key, t) ('"' :: (key.chars ++ '"' :: (v ++ ':' :: (w ++ p))))

/-- A way to write a tree. -/
inductive Spells : Tree → List Char → Prop
  | word (w : Word) : Spells (.word w) w.chars
  | text (b : Body) : Spells (.text b) ('"' :: (b.chars ++ ['"']))
  | list {ts : List Tree} {s : List Char} (parts : Parts Spells ']' true ts s) :
      Spells (.list ts) ('[' :: s)
  | object {ms : List (Body × Tree)} {s : List Char}
      (parts : Parts (Member Spells) '\x7d' true ms s) : Spells (.object ms) ('\x7b' :: s)

/-- A document that holds the tree. -/
def Spelled (t : Tree) (text : String) : Prop :=
  ∃ v s w, text.toList = v ++ (s ++ w) ∧ Gap v ∧ Spells t s ∧ Gap w

theorem Parts.imp {α : Type} {part part' : α → List Char → Prop} {close : Char} {first : Bool}
    {l : List α} {s : List Char} (h : Parts part close first l s)
    (himp : ∀ a ∈ l, ∀ p, part a p → part' a p) : Parts part' close first l s := by
  induction h with
  | nil gap => exact .nil gap
  | @cons first a l v w p s before behind head tail ih =>
    refine .cons before behind (himp a List.mem_cons_self p head) (ih ?_)
    intro b hb
    exact himp b (List.mem_cons_of_mem a hb)

/-! ## 4. How a spelling starts -/

/-- A literal starts with a letter, a number with its sign or a digit. -/
def startsWord (c : Char) : Bool := c == 'n' || c == 't' || c == 'f' || c == '-' || isDigit c

theorem isSpace_of_startsWord {c : Char} (h : startsWord c = true) : isSpace c = false := by
  cases hc : isSpace c with
  | false => rfl
  | true =>
    simp only [isSpace, Bool.or_eq_true, beq_iff_eq] at hc
    rcases hc with ((rfl | rfl) | rfl) | rfl <;> revert h <;> decide

theorem ne_of_startsWord {c d : Char} (h : startsWord c = true) (hd : startsWord d = false) :
    c ≠ d := by
  rintro rfl
  rw [h] at hd
  cases hd

theorem IsUnsigned.exists_cons {s : List Char} (h : IsUnsigned s) :
    ∃ c r, s = c :: r ∧ isDigit c = true := by
  obtain ⟨whole, fraction, exponent, rfl, ⟨⟨hne, hdigits⟩, -⟩, -, -⟩ := h
  obtain ⟨c, r, rfl⟩ := List.exists_cons_of_ne_nil hne
  exact ⟨c, _, rfl, hdigits c List.mem_cons_self⟩

theorem IsWord.exists_cons {s : List Char} (h : IsWord s) :
    ∃ c r, s = c :: r ∧ startsWord c = true := by
  cases h with
  | nullWord | trueWord | falseWord | negative => exact ⟨_, _, rfl, rfl⟩
  | unsigned hs =>
    obtain ⟨c, r, rfl, hc⟩ := hs.exists_cons
    exact ⟨c, r, rfl, by simp [startsWord, hc]⟩

/-- Only `null` starts as it does. -/
theorem IsWord.eq_null {r : List Char} (h : IsWord ('n' :: r)) : r = ['u', 'l', 'l'] := by
  cases h with
  | nullWord => rfl
  | unsigned hs =>
    obtain ⟨c, t, heq, hc⟩ := hs.exists_cons
    obtain ⟨rfl, -⟩ := List.cons.inj heq
    exact absurd hc (by decide)

/-- The first character of a tree, whatever way it is written. -/
def Tree.opensWith : Tree → Char → Prop
  | .word _, c => startsWord c = true
  | .text _, c => c = '"'
  | .list _, c => c = '['
  | .object _, c => c = '\x7b'

theorem Spells.exists_cons {t : Tree} {s : List Char} (h : Spells t s) :
    ∃ c r, s = c :: r ∧ t.opensWith c := by
  cases h with
  | word w =>
    obtain ⟨c, r, hw, hc⟩ := w.valid.exists_cons
    exact ⟨c, r, hw, hc⟩
  | text | list | object => exact ⟨_, _, rfl, rfl⟩

theorem Tree.opensWith.isSpace {t : Tree} {c : Char} (h : t.opensWith c) : isSpace c = false := by
  cases t with
  | word w => exact isSpace_of_startsWord h
  | text | list | object => cases h; decide

theorem Tree.opensWith.ne_close {t : Tree} {c : Char} (h : t.opensWith c) : c ≠ ']' := by
  cases t with
  | word w => exact ne_of_startsWord h (by decide)
  | text | list | object => cases h; decide

/-! ## 5. The spelling without white space -/

mutual

/-- The tree without white space. -/
def Tree.compact : Tree → List Char
  | .word w => w.chars
  | .text b => '"' :: (b.chars ++ ['"'])
  | .list ts => '[' :: compactElements true ts
  | .object ms => '\x7b' :: compactMembers true ms

/-- The elements of a list and its closing bracket. -/
def compactElements : Bool → List Tree → List Char
  | _, [] => [']']
  | first, t :: ts => separator first ++ (t.compact ++ compactElements false ts)

/-- The members of an object and its closing bracket. -/
def compactMembers : Bool → List (Body × Tree) → List Char
  | _, [] => ['\x7d']
  | first, (key, t) :: ms =>
    separator first ++ ('"' :: (key.chars ++ '"' :: ':' :: t.compact) ++ compactMembers false ms)

end

theorem parts_compactElements {ts : List Tree} (h : ∀ t ∈ ts, Spells t t.compact) :
    ∀ first, Parts Spells ']' first ts (compactElements first ts) := by
  induction ts with
  | nil =>
    intro first
    rw [compactElements]
    exact .nil gap_nil
  | cons t ts ih =>
    intro first
    rw [compactElements]
    have htail := ih (fun u hu => h u (List.mem_cons_of_mem t hu)) false
    exact .cons gap_nil gap_nil (h t List.mem_cons_self) htail

theorem parts_compactMembers {ms : List (Body × Tree)} (h : ∀ m ∈ ms, Spells m.2 m.2.compact) :
    ∀ first, Parts (Member Spells) '\x7d' first ms (compactMembers first ms) := by
  induction ms with
  | nil =>
    intro first
    rw [compactMembers]
    exact .nil gap_nil
  | cons m ms ih =>
    intro first
    obtain ⟨key, t⟩ := m
    rw [compactMembers]
    have htail := ih (fun n hn => h n (List.mem_cons_of_mem _ hn)) false
    have hhead : Member Spells (key, t) ('"' :: (key.chars ++ '"' :: ':' :: t.compact)) :=
      .mk gap_nil gap_nil (h (key, t) List.mem_cons_self)
    exact .cons gap_nil gap_nil hhead htail

/-- Every tree can be written. -/
theorem spells_compact (t : Tree) : Spells t t.compact := by
  induction t using Tree.induct with
  | word w => rw [Tree.compact]; exact .word w
  | text b => rw [Tree.compact]; exact .text b
  | list ts ih => rw [Tree.compact]; exact .list (parts_compactElements ih true)
  | object ms ih => rw [Tree.compact]; exact .object (parts_compactMembers ih true)

theorem spelled_compact (t : Tree) : Spelled t (String.ofList t.compact) :=
  ⟨[], t.compact, [], by simp, gap_nil, spells_compact t, gap_nil⟩

end DialogueExport.Json
