import CommandContract.Number.Power

set_option autoImplicit false

/-!
# Identifiers

A sortable identifier is a number of 128 bits, the upper 48 of which are a time in milliseconds,
written with 26 digits of base 32.
-/
namespace CommandContract.Identifier

/-- Digits and capitals without those that are mistaken for others. -/
def alphabet : List Char := "0123456789ABCDEFGHJKMNPQRSTVWXYZ".toList

def digit (n : Nat) : Char := alphabet.getD (n % 32) '0'

/-- The last digits of a number, the least one last. -/
def digits : Nat → Nat → List Char
  | 0, _ => []
  | count + 1, n => digits count (n / 32) ++ [digit n]

def ofParts (milliseconds random : Nat) : String :=
  String.ofList (digits 26 (milliseconds % pow2 48 * pow2 80 + random % pow2 80))

theorem length_digits (count n : Nat) : (digits count n).length = count := by
  induction count generalizing n with
  | zero => rfl
  | succ count ih => simp [digits, ih]

end CommandContract.Identifier
