import CommandContract.Number.Binary64

set_option autoImplicit false

/-!
# Decimal numerals

A decimal is `± digits * 10 ^ exponent`. `Decimal.ofText?` reads a numeral with an optional sign,
point and exponent, and `Decimal.toBinary?` rounds it. In the other direction `Decimal.shortest`
chooses, for a finite binary number, the decimal with the fewest digits that rounds back to it, and
of those the nearest. Two layouts write a decimal: positional, and with an exponent.
-/
namespace CommandContract

structure Decimal where
  negative : Bool
  digits : Nat
  exponent : Int
  deriving DecidableEq, Repr, Inhabited

namespace Decimal

def digitValue (c : Char) : Nat := c.toNat - 48

/-- The number that a run of ASCII digits spells. -/
def ofDigits (cs : List Char) : Nat := cs.foldl (fun n c => 10 * n + digitValue c) 0

/-- An integer numeral: an optional sign, then ASCII digits. -/
def integer? (cs : List Char) : Option Int :=
  let (negative, body) :=
    match cs with
    | '-' :: r => (true, r)
    | '+' :: r => (false, r)
    | r => (false, r)
  if body.isEmpty || !body.all Char.isDigit then none
  else if negative then some (-(ofDigits body : Int)) else some (ofDigits body)

/-- A numeral with at least one digit beside an optional point, and an optional exponent. -/
def ofText? (cs : List Char) : Option Decimal :=
  let (negative, body) :=
    match cs with
    | '-' :: r => (true, r)
    | '+' :: r => (false, r)
    | r => (false, r)
  let (whole, r) := body.span Char.isDigit
  let (fraction, r) :=
    match r with
    | '.' :: t => t.span Char.isDigit
    | r => ([], r)
  if whole.isEmpty && fraction.isEmpty then none
  else
    let digits := ofDigits (whole ++ fraction)
    match r with
    | [] => some ⟨negative, digits, -fraction.length⟩
    | e :: r =>
      if e = 'e' ∨ e = 'E' then
        (integer? r).map fun k => ⟨negative, digits, k - fraction.length⟩
      else none

/-- The nearest binary number. Exponents far outside the format are settled without computing the
power: what is certainly too large has no number, and what is certainly too small is zero. -/
def toBinary? (d : Decimal) : Option Binary64 :=
  let size : Int := (Nat.toDigits 10 d.digits).length + d.exponent
  if d.digits = 0 || size < -400 then some ⟨d.negative, 0, Binary64.unitExponent⟩
  else if 400 < size then none
  else Binary64.ofRatio? d.negative (d.digits * pow10 d.exponent.toNat) (pow10 (-d.exponent).toNat)

/-- Which of two equally near decimals is chosen. -/
inductive Tie where
  | toEven
  | up

/-- Compares `a * 10 ^ i` with `b * 2 ^ j` exactly. -/
def compareTenTwo (a : Nat) (i : Int) (b : Nat) (j : Int) : Ordering :=
  compare (a * pow10 i.toNat * pow2 (-j).toNat) (b * pow2 j.toNat * pow10 (-i).toNat)

/-- The decimal `digits * 10 ^ exponent` lies in the interval of reals that round to the positive
number `x`: its ends are halfway to the two neighbours, and belong to it iff the mantissa is even.
Below a power of two the lower neighbour is half as far away. -/
def roundsTo (x : Binary64) (digits : Nat) (exponent : Int) : Bool :=
  let narrow := x.mantissa == pow2 52 && decide (Binary64.unitExponent < x.exponent)
  let low := if narrow then 4 * x.mantissa - 1 else 4 * x.mantissa - 2
  let closed := x.mantissa % 2 == 0
  let below := compareTenTwo digits exponent low (x.exponent - 2)
  let above := compareTenTwo digits exponent (4 * x.mantissa + 2) (x.exponent - 2)
  (below == .gt || (closed && below == .eq)) && (above == .lt || (closed && above == .eq))

/-- Moves the zeros at the end of the digits into the exponent. -/
def stripZeros : Nat → Nat → Int → Nat × Int
  | 0, digits, exponent => (digits, exponent)
  | fuel + 1, digits, exponent =>
    if digits % 10 = 0 then stripZeros fuel (digits / 10) (exponent + 1) else (digits, exponent)

/-- One of the two neighbours of `x` among the decimals of `n` digits, if it rounds to `x`. -/
def withDigits? (tie : Tie) (x : Binary64) (scaledUp : Nat) (length : Nat) (n : Nat) :
    Option (Nat × Int) :=
  let grid := pow10 (length - n)
  let exponent : Int := (length : Int) - n - 360
  let low := scaledUp / grid
  let takeLow := roundsTo x low exponent
  let takeHigh := roundsTo x (low + 1) exponent
  if takeLow && takeHigh then
    -- the halfway point between the two candidates against the value
    match compareTenTwo (10 * low + 5) (exponent - 1) x.mantissa x.exponent with
    | .gt => some (low, exponent)
    | .lt => some (low + 1, exponent)
    | .eq =>
      match tie with
      | .up => some (low + 1, exponent)
      | .toEven => some (if low % 2 = 0 then low else low + 1, exponent)
  else if takeLow then some (low, exponent)
  else if takeHigh then some (low + 1, exponent)
  else none

/-- The fewest digits that round back to `x`. The value is first written, rounded down, in steps of
`10 ^ -360`, which is finer than seventeen digits of the least positive number. -/
def shortest (tie : Tie) (x : Binary64) : Decimal :=
  if x.mantissa = 0 then ⟨x.negative, 0, 0⟩
  else
    let scaledUp := x.mantissa * pow2 x.exponent.toNat * pow10 360 / pow2 (-x.exponent).toNat
    let length := (Nat.toDigits 10 scaledUp).length
    match ((List.range 17).map (· + 1)).findSome? (withDigits? tie x scaledUp length) with
    | some (digits, exponent) =>
      let (digits, exponent) := stripZeros 20 digits exponent
      ⟨x.negative, digits, exponent⟩
    | none => ⟨x.negative, scaledUp, -360⟩

def sign (d : Decimal) : List Char := if d.negative then ['-'] else []

/-- The decimal exponent of the leading digit. -/
def leading (d : Decimal) : Int := (Nat.toDigits 10 d.digits).length - 1 + d.exponent

/-- Digits with a point where it belongs; an integral number ends in `.0` if `pointZero` is set. -/
def positional (pointZero : Bool) (d : Decimal) : List Char :=
  let digits := Nat.toDigits 10 d.digits
  let body :=
    if 0 ≤ d.exponent then
      digits ++ List.replicate d.exponent.toNat '0' ++ (if pointZero then ['.', '0'] else [])
    else
      let places := (-d.exponent).toNat
      if places < digits.length then
        digits.take (digits.length - places) ++ '.' :: digits.drop (digits.length - places)
      else '0' :: '.' :: (List.replicate (places - digits.length) '0' ++ digits)
  d.sign ++ body

/-- One digit before the point, and an exponent that always has a sign when it is positive. -/
def scientific (d : Decimal) : List Char :=
  let mantissa :=
    match Nat.toDigits 10 d.digits with
    | [] => []
    | [c] => [c]
    | c :: cs => c :: '.' :: cs
  let e := d.leading
  let mark := if e < 0 then ['e', '-'] else ['e', '+']
  d.sign ++ mantissa ++ mark ++ Nat.toDigits 10 e.natAbs

end Decimal

end CommandContract
