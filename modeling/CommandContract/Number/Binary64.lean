import CommandContract.Number.Power

set_option autoImplicit false

/-!
# Finite binary64 numbers

A number is a sign, a mantissa and a power of two, read as `± mantissa * 2 ^ exponent`; the sign
of zero is kept. `Binary64.units` is its exact value, counted in the finest step of the format, and
all comparisons go through it. `Binary64.ofRatio?` rounds an exact quotient once, to the nearest
representable number and on a tie to the one with an even mantissa; a quotient too large for the
format has no number.
-/
namespace CommandContract

structure Binary64 where
  negative : Bool
  mantissa : Nat
  exponent : Int
  deriving DecidableEq, Repr, Inhabited

namespace Binary64

/-- The exponent of the finest step: every number is a multiple of `2 ^ -1074`. -/
def unitExponent : Int := -1074

/-- One, in units. -/
def one : Nat := pow2 1074

/-- The exact value as a multiple of the finest step. -/
def units (x : Binary64) : Int :=
  let size : Nat := x.mantissa * pow2 (x.exponent - unitExponent).toNat
  if x.negative then -(size : Int) else size

/-- Equal as numbers: the two zeros are one. -/
def same (x y : Binary64) : Bool := x.units == y.units

def lt (x y : Binary64) : Bool := decide (x.units < y.units)

def isZero (x : Binary64) : Bool := x.mantissa == 0

def neg (x : Binary64) : Binary64 := { x with negative := !x.negative }

/-- Without a fractional part. -/
def isIntegral (x : Binary64) : Bool := x.units % one == 0

/-- The integer part, toward zero. -/
def truncate (x : Binary64) : Int := x.units.tdiv one

/-- The quotient rounded to an integer, a half going to the even neighbour. -/
def roundQuotient (num den : Nat) : Nat :=
  let q := num / den
  let r := num % den
  if 2 * r < den then q
  else if den < 2 * r then q + 1
  else q + q % 2

/-- Numerator and denominator of `num / den / 2 ^ e`. -/
def scaled (num den : Nat) (e : Int) : Nat × Nat :=
  (num * pow2 (-e).toNat, den * pow2 e.toNat)

/-- The exponent at which the quotient has 53 bits before the point, or the least exponent. -/
def exponentFor (num den : Nat) : Int :=
  let guess : Int := (num.log2 : Int) - den.log2 - 52
  let (n, d) := scaled num den guess
  max unitExponent (if n < d * pow2 52 then guess - 1 else guess)

/-- The nearest number to a quotient, with the exponent not yet bounded above. -/
def nearest (negative : Bool) (num den : Nat) : Binary64 :=
  if num = 0 then ⟨negative, 0, unitExponent⟩
  else
    let e := exponentFor num den
    let (n, d) := scaled num den e
    let m := roundQuotient n d
    if m = pow2 53 then ⟨negative, pow2 52, e + 1⟩ else ⟨negative, m, e⟩

def ofRatio? (negative : Bool) (num den : Nat) : Option Binary64 :=
  let x := nearest negative num den
  if x.exponent ≤ 971 then some x else none

/-- The numerator and denominator of a magnitude. -/
def ratio (x : Binary64) : Nat × Nat :=
  (x.mantissa * pow2 x.exponent.toNat, pow2 (-x.exponent).toNat)

/-- The rounded product; one too large for the format has no number. -/
def mul? (x y : Binary64) : Option Binary64 :=
  ofRatio? (x.negative != y.negative) (x.ratio.1 * y.ratio.1) (x.ratio.2 * y.ratio.2)

/-- The rounded quotient by a number of at least one. -/
def div (x y : Binary64) : Binary64 :=
  nearest (x.negative != y.negative) (x.ratio.1 * y.ratio.2) (x.ratio.2 * y.ratio.1)

/-- The nearest number to an integer of 64 bits; such an integer is never too large. -/
def ofInt (n : Int) : Binary64 := nearest (n < 0) n.natAbs 1

end Binary64

end CommandContract
