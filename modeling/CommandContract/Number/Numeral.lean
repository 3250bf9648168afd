import CommandContract.Json.Value

set_option autoImplicit false

/-!
# Numbers typed by hand

A numeral outside strict JSON is an integer when it spells one of 64 signed bits, and otherwise the
nearest finite binary number.
-/
namespace CommandContract

/-- The signed 64-bit integer that a text spells. -/
def signedInteger? (cs : List Char) : Option Int :=
  (Decimal.integer? cs).filter Number.isSigned

/-- The finite binary number that a text spells. -/
def finiteBinary? (cs : List Char) : Option Binary64 :=
  (Decimal.ofText? cs).bind Decimal.toBinary?

def Number.ofNumeral? (cs : List Char) : Option Number :=
  match signedInteger? cs with
  | some n => some (.int n)
  | none => (finiteBinary? cs).map .float

end CommandContract
