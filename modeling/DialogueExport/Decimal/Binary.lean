/-!
# Binary numbers of double width, in exact arithmetic

A number that a document writes with a point, an exponent or too many digits is kept as the
nearest binary number with 53 significant bits.  `Binary` holds the finite ones that are not
negative.  All of them are whole multiples of the least, 2⁻¹⁰⁷⁴, so a number is the pair of its
53 bits and the power of two by which they are shifted, and every operation is one division
of natural numbers, rounded to nearest with ties to even (`divEven`).
-/

namespace DialogueExport.Decimal

/-! ## 1. Division to the nearest whole number -/

/-- The whole number nearest to `num / den`; of two that are equally near, the even one. -/
def divEven (num den : Nat) : Nat :=
  let q := num / den
  let twice := 2 * (num % den)
  if twice < den then q
  else if den < twice then q + 1
  else if q % 2 = 0 then q else q + 1

/-! ## 2. The numbers -/

/-- The number `bits * 2 ^ shift` times the least positive number 2⁻¹⁰⁷⁴. -/
structure Binary where
  /-- At most 53 significant bits. -/
  bits : Nat
  /-- The power of two above the least. -/
  shift : Nat
deriving DecidableEq

namespace Binary

/-- How many of the least positive number make one. -/
def one : Nat := Nat.pow 2 1074

/-- The leading one of 53 significant bits, 2⁵². -/
def leadingBit : Nat := 0x10000000000000

/-- The greatest shift of a finite number. -/
def greatestShift : Nat := 2045

/-- The number in multiples of the least positive one. -/
def units (x : Binary) : Nat := x.bits * Nat.pow 2 x.shift

def isZero (x : Binary) : Bool := x.bits == 0

/-- The number nearest to `num / den` multiples of the least positive one, if it is finite. -/
def round? (num den : Nat) : Option Binary :=
  let shift := (num / den).log2 - 52
  let bits := divEven num (den * Nat.pow 2 shift)
  let x : Binary := if bits = 2 * leadingBit then ⟨leadingBit, shift + 1⟩ else ⟨bits, shift⟩
  if x.shift ≤ greatestShift then some x else none

/-- The number nearest to a natural number. -/
def ofNat? (n : Nat) : Option Binary := round? (n * one) 1

/-- The product, rounded. -/
def mul? (x y : Binary) : Option Binary := round? (x.units * y.units) one

/-- The quotient, rounded. -/
def div? (x y : Binary) : Option Binary := round? (x.units * one) y.units

/-- The number nearest to a power of ten. -/
def tenPow? (n : Nat) : Option Binary := ofNat? (Nat.pow 10 n)

/-- The greatest power of ten that is finite. -/
def greatestTenPow : Nat := 308

/-- Moves the decimal point by `exponent` places.  The move is one multiplication or division
by a rounded power of ten, after as many divisions by the greatest one as a smaller exponent
needs; each step rounds, so the last bit may differ from that of the exact result.  There is
no result if the number gets too large. -/
def scaleTen? (x : Binary) (exponent : Int) : Option Binary :=
  if exponent.natAbs ≤ greatestTenPow then do
    let p ← tenPow? exponent.natAbs
    if 0 ≤ exponent then x.mul? p else x.div? p
  else if x.isZero then some x
  else if _h : 0 ≤ exponent then none
  else do
    let p ← tenPow? greatestTenPow
    let y ← x.div? p
    y.scaleTen? (exponent + greatestTenPow)
termination_by exponent.natAbs
decreasing_by simp only [greatestTenPow] at *; omega

end Binary

end DialogueExport.Decimal
