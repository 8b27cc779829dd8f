import DialogueExport.Decimal.Binary

/-!
# The shortest decimal that reads back

A binary number is shown by the fewest decimal digits that lie nearer to it than to any other
binary number; of several such decimals by the nearest, and of two equally near ones by the
one with an even last digit.

For each number of digits only the two neighbours of the value on that decimal grid can be
meant, so the search looks at 1, 2, … 17 digits and takes the first grid with a neighbour
inside the interval of values that round to the number.
-/

namespace DialogueExport.Decimal

/-- The decimal number `digits * 10 ^ exponent`. -/
structure Scientific where
  digits : Nat
  exponent : Int
deriving DecidableEq

/-- The values that round to one binary number, with the number itself, in quarters of the
least positive number. -/
structure Rounding where
  low : Nat
  value : Nat
  high : Nat
  /-- Whether `low` and `high` round to the number themselves: ties go to the even one. -/
  closed : Bool

/-- The interval around a number reaches half way to its neighbours; the neighbour below a
power of two is only half as far away as the one above. -/
def Binary.rounding (x : Binary) : Rounding :=
  let gap := Nat.pow 2 x.shift
  { low := 4 * x.units - (if x.bits = Binary.leadingBit && 0 < x.shift then gap else 2 * gap)
    value := 4 * x.units
    high := 4 * x.units + 2 * gap
    closed := x.bits % 2 == 0 }

/-- Quarters of the least positive number that make one. -/
def quarters : Nat := 4 * Binary.one

/-- The power of ten of the leading digit. -/
def Rounding.magnitude (r : Rounding) : Int :=
  (Nat.toDigits 10 (r.value * Nat.pow 10 400 / quarters)).length - 401

/-- Whether `n / den` lies in the interval, whose ends are given in `1 / num` of it. -/
def Rounding.holds (r : Rounding) (n num den : Nat) : Bool :=
  if r.closed then r.low * num ≤ n * den && n * den ≤ r.high * num
  else r.low * num < n * den && n * den < r.high * num

/-- The decimal with `count` digits that is nearest to the value and rounds to it. -/
def Rounding.onGrid? (r : Rounding) (count : Nat) : Option Scientific :=
  let exponent := r.magnitude - (count - 1 : Nat)
  let ten := Nat.pow 10 exponent.natAbs
  let num := if exponent < 0 then ten else 1
  let den := quarters * (if exponent < 0 then 1 else ten)
  let below := r.value * num / den
  let twice := 2 * (r.value * num % den)
  match r.holds below num den, r.holds (below + 1) num den with
  | true, true =>
    if twice < den || (twice == den && below % 2 == 0) then some ⟨below, exponent⟩
    else some ⟨below + 1, exponent⟩
  | true, false => some ⟨below, exponent⟩
  | false, true => some ⟨below + 1, exponent⟩
  | false, false => none

/-- Seventeen digits always read back. -/
def greatestCount : Nat := 17

/-- The shortest decimal that reads back. -/
def Binary.shortest (x : Binary) : Scientific :=
  if x.isZero then ⟨0, 0⟩
  else ((List.range greatestCount).findSome? fun i => x.rounding.onGrid? (i + 1)).getD ⟨0, 0⟩

/-! ## Layout -/

/-- Digits without the zeros at their end. -/
def trimZeros (ds : List Char) : List Char := (ds.reverse.dropWhile (· == '0')).reverse

/-- The text of a decimal: positional with at least one place when the power of ten of its
leading digit is between -5 and 15, otherwise one digit before the point and a signed
exponent. -/
def Scientific.text (d : Scientific) : String :=
  let all := Nat.toDigits 10 d.digits
  let leading : Int := d.exponent + (all.length - 1 : Nat)
  let ds := trimZeros all
  if d.digits = 0 then "0.0"
  else if -5 ≤ leading ∧ leading < 0 then
    String.ofList ('0' :: '.' :: List.replicate (leading.natAbs - 1) '0' ++ ds)
  else if 0 ≤ leading ∧ leading ≤ 15 then
    let whole := leading.natAbs + 1
    let front := ds.take whole ++ List.replicate (whole - ds.length) '0'
    let back := ds.drop whole
    String.ofList (front ++ '.' :: (if back.isEmpty then ['0'] else back))
  else
    let point := if ds.length ≤ 1 then ds else ds.take 1 ++ '.' :: ds.drop 1
    String.ofList (point ++ 'e' :: (if leading < 0 then '-' else '+')
      :: Nat.toDigits 10 leading.natAbs)

end DialogueExport.Decimal
