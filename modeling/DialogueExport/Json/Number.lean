import DialogueExport.Json.Space
import DialogueExport.Outcome

/-!
# Numbers of a document

No field of a document holds a number, so a number is read for two purposes only.

* `readNumber` reads it where another type is wanted: the message shows its value.  Whole
  numbers of 64 bits stay whole; all others become binary numbers.  For those the digits are
  collected while they fit in 64 bits, and the decimal point is moved afterwards.
* `skipNumber` passes over it in a field that is not wanted: only its form counts.

The two differ in where they see a fault.
-/

namespace DialogueExport.Json

open DialogueExport.Decimal (Binary)

/-! ## 1. Digits -/

def isDigit (c : Char) : Bool := '0' ≤ c && c ≤ '9'

def digitValue (c : Char) : Nat := c.toNat - '0'.toNat

/-- Reads digits on from `n` while the number stays below `bound`, and gives the digits that
are left: those from the first one on that would not fit. -/
def collect (bound n : Nat) : List Char → Nat × List Char
  | [] => (n, [])
  | d :: ds =>
    if n * 10 + digitValue d < bound then collect bound (n * 10 + digitValue d) ds
    else (n, d :: ds)

theorem length_dropDigits_le (s : List Char) : (s.dropWhile isDigit).length ≤ s.length :=
  (List.dropWhile_sublist isDigit).length_le

/-! ## 2. A number whose value is wanted -/

/-- Above the greatest whole number of 64 bits, 2⁶⁴. -/
def wordBound : Nat := 0x10000000000000000

/-- The least whole number of 64 bits with a sign is minus this, 2⁶³. -/
def signBound : Nat := 0x8000000000000000

/-- Above the greatest exponent, 2³¹. -/
def exponentBound : Nat := 0x80000000

/-- The number `significand * 10 ^ exponent`, after which `rest` follows. -/
def scaled (negative : Bool) (significand : Nat) (exponent : Int) (rest : List Char) :
    Except Fault (Found × List Char) :=
  match (Binary.ofNat? significand).bind (·.scaleTen? exponent) with
  | some x => .ok (.floating negative x, rest)
  | none => .error (.here .numberTooLarge rest)

/-- Whether a letter announces an exponent. -/
def isExponentMark (c : Char) : Bool := c == 'e' || c == 'E'

/-- Takes the sign of an exponent, if there is one: whether it is negative. -/
def takeSign : List Char → Bool × List Char
  | '-' :: r => (true, r)
  | '+' :: r => (false, r)
  | s => (false, s)

/-- The rest of a number from behind the mark of its exponent.  An exponent that does not fit
in 32 bits makes the number zero if it is negative or has nothing to scale, else too large. -/
def readExponent (negative : Bool) (significand : Nat) (start : Int) (s : List Char) :
    Except Fault (Found × List Char) :=
  let (down, s) := takeSign s
  match s with
  | [] => .error (.here .endInValue [])
  | c :: _ =>
    if !isDigit c then .error (.next .malformedNumber s)
    else
      let rest := s.dropWhile isDigit
      match collect exponentBound 0 (s.takeWhile isDigit) with
      | (n, []) => scaled negative significand (if down then start - n else start + n) rest
      | (_, excess) =>
        if significand ≠ 0 ∧ !down then .error (.next .numberTooLarge (excess ++ rest))
        else .ok (.floating negative ⟨0, 0⟩, rest)

/-- The rest of a number from behind its digits. -/
def readScale (negative : Bool) (significand : Nat) (exponent : Int) (s : List Char) :
    Except Fault (Found × List Char) :=
  match s with
  | c :: r =>
    if isExponentMark c then readExponent negative significand exponent r
    else scaled negative significand exponent s
  | [] => scaled negative significand exponent []

/-- A number without point and exponent whose digits fit in 64 bits.  There is no whole
negative zero, and no whole number below the least of 64 bits with a sign. -/
def whole (negative : Bool) (n : Nat) (rest : List Char) : Except Fault (Found × List Char) :=
  if !negative then .ok (.integer n, rest)
  else if n = 0 ∨ signBound < n then scaled true n 0 rest
  else .ok (.integer (-n), rest)

/-- Reads a number from behind its minus sign, if it has one. -/
def readNumber (negative : Bool) (s : List Char) : Except Fault (Found × List Char) :=
  match s with
  | [] => .error (.here .endInValue [])
  | c :: r =>
    let digits := s.takeWhile isDigit
    let rest := s.dropWhile isDigit
    if !isDigit c then .error (.next .malformedNumber s)
    else if c = '0' ∧ 1 < digits.length then .error (.next .malformedNumber r)
    else
      let (n, excess) := collect wordBound 0 digits
      match rest with
      | '.' :: r =>
        let places := r.takeWhile isDigit
        if places.isEmpty then
          .error (.next (if r.isEmpty then .endInValue else .malformedNumber) r)
        else
          let (n, past) := collect wordBound n places
          let used : Int := places.length - past.length
          readScale negative n (excess.length - used) (r.dropWhile isDigit)
      | c :: _ =>
        if excess.isEmpty && !isExponentMark c then whole negative n rest
        else readScale negative n excess.length rest
      | [] =>
        if excess.isEmpty then whole negative n []
        else readScale negative n excess.length []

/-! ## 3. A number that is passed over -/

/-- Passes over an exponent from behind its mark. -/
def skipExponent (s : List Char) : Except Fault (List Char) :=
  let s := (takeSign s).2
  match s with
  | [] => .error (.here .malformedNumber [])
  | c :: r => if isDigit c then .ok (r.dropWhile isDigit) else .error (.next .malformedNumber s)

/-- Passes over what may follow the digits of a number. -/
def skipScale (s : List Char) : Except Fault (List Char) :=
  match s with
  | c :: r => if isExponentMark c then skipExponent r else .ok s
  | [] => .ok []

/-- Passes over a number from behind its minus sign, if it has one. -/
def skipNumber (s : List Char) : Except Fault (List Char) :=
  match s with
  | [] => .error (.here .malformedNumber [])
  | c :: r =>
    if !isDigit c then .error (.next .malformedNumber s)
    else if c = '0' ∧ 1 < (s.takeWhile isDigit).length then .error (.next .malformedNumber r)
    else
      match s.dropWhile isDigit with
      | '.' :: r =>
        if (r.takeWhile isDigit).isEmpty then .error (.next .malformedNumber r)
        else skipScale (r.dropWhile isDigit)
      | rest => skipScale rest

theorem length_takeSign_le (s : List Char) : (takeSign s).2.length ≤ s.length := by
  unfold takeSign
  split <;> simp

theorem length_of_skipExponent {s r : List Char} (h : skipExponent s = .ok r) :
    r.length ≤ s.length := by
  have ht := length_takeSign_le s
  unfold skipExponent at h
  dsimp only at h
  split at h
  · cases h
  · next c t hs =>
    split at h
    · simp only [Except.ok.injEq] at h
      subst h
      have := length_dropDigits_le t
      rw [hs] at ht
      simp only [List.length_cons] at ht
      omega
    · cases h

theorem length_of_skipScale {s r : List Char} (h : skipScale s = .ok r) :
    r.length ≤ s.length := by
  unfold skipScale at h
  split at h
  · split at h
    · have := length_of_skipExponent h
      simp only [List.length_cons]; omega
    · cases h; exact Nat.le_refl _
  · cases h; exact Nat.le_refl _

/-- A number takes at least one digit. -/
theorem length_of_skipNumber {s r : List Char} (h : skipNumber s = .ok r) :
    r.length < s.length := by
  unfold skipNumber at h
  split at h
  · cases h
  · next c t =>
    split at h
    · cases h
    · next hc =>
      split at h
      · cases h
      · have hd : ((c :: t).dropWhile isDigit).length ≤ t.length := by
          have hc : isDigit c = true := by simpa using hc
          simpa [List.dropWhile, hc] using length_dropDigits_le t
        split at h
        · next r' hr =>
          split at h
          · cases h
          · have := length_of_skipScale h
            have := length_dropDigits_le r'
            rw [hr] at hd
            simp only [List.length_cons] at hd ⊢
            omega
        · have := length_of_skipScale h
          simp only [List.length_cons]; omega

end DialogueExport.Json
