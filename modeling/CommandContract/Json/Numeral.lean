import CommandContract.Json.Value

set_option autoImplicit false

/-!
# Numerals of JSON

A numeral without point and exponent that fits 64 bits is an integer, except `-0`. Every other
numeral is a binary number found in two steps: as many leading digits as fit 64 bits make an
integer, digits behind them only shift it, and the integer, once rounded, is multiplied with or
divided by a power of ten that was rounded before. So numerals with few digits and a small exponent
are read exactly, and others may miss the nearest binary number by some units in the last place. A
numeral too large for the format is refused.
-/
namespace CommandContract.Json

/-- A numeral cut into its parts, the exponent being zero where none is written. -/
structure Numeral where
  negative : Bool
  whole : List Char
  fraction : List Char
  exponent : Int
  /-- without point and exponent -/
  plain : Bool
  deriving DecidableEq, Repr

/-- Takes digits while the number stays within 64 bits, and gives the ones that are left. -/
def gather : Nat → List Char → Nat × List Char
  | n, [] => (n, [])
  | n, c :: cs =>
    let next := 10 * n + Decimal.digitValue c
    if Number.isUnsigned next then gather next cs else (n, c :: cs)

/-- The leading digits as an integer, and the power of ten it has to be scaled by. -/
def Numeral.scaled (x : Numeral) : Nat × Int :=
  let (n, behind) := gather 0 x.whole
  let (n, dropped) := gather n x.fraction
  (n, behind.length - (x.fraction.length - dropped.length : Nat) + x.exponent)

/-- The greatest power of ten within the format. -/
def greatestPower : Nat := 308

/-- A power of ten, rounded. -/
def power (k : Nat) : Binary64 := Binary64.nearest false (pow10 k) 1

/-- Divides by powers of ten; the fourth quotient by the greatest one would be zero in any case. -/
def divideDown : Nat → Binary64 → Nat → Binary64
  | 0, x, _ => { x with mantissa := 0 }
  | steps + 1, x, k =>
    if k ≤ greatestPower then x.div (power k)
    else divideDown steps (x.div (power greatestPower)) (k - greatestPower)

/-- An integer scaled by a power of ten, with two roundings. -/
def scale? (n : Nat) (exponent : Int) : Option Binary64 :=
  let x := Binary64.nearest false n 1
  if n = 0 then some x
  else if exponent < 0 then some (divideDown 4 x exponent.natAbs)
  else if exponent.toNat ≤ greatestPower then x.mul? (power exponent.toNat)
  else none

def Numeral.toBinary? (x : Numeral) : Option Binary64 :=
  let (n, exponent) := x.scaled
  (scale? n exponent).map fun y => if x.negative then y.neg else y

def Numeral.integer? (x : Numeral) : Option Int :=
  let size := Decimal.ofDigits x.whole
  if !x.plain then none
  else if x.negative then
    if size ≠ 0 ∧ Number.isSigned (-size) then some (-size) else none
  else if Number.isUnsigned size then some size
  else none

def Numeral.number? (x : Numeral) : Option Number :=
  match x.integer? with
  | some n => some (.int n)
  | none => x.toBinary?.map .float

end CommandContract.Json
