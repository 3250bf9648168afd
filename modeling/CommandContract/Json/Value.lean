import CommandContract.Members
import CommandContract.Number.Decimal

set_option autoImplicit false

/-!
# JSON values

Values whose objects remember the order of their members. A number is an integer of 64 bits,
signed or unsigned, or a finite binary number; the two kinds are never equal as values, and
comparisons that look at the quantity go through `Number.toBinary`.
-/
namespace CommandContract

inductive Number where
  | int (n : Int)
  | float (x : Binary64)
  deriving DecidableEq, Repr, Inhabited

namespace Number

def toBinary : Number → Binary64
  | int n => .ofInt n
  | float x => x

def signedMin : Int := -9223372036854775808
def signedMax : Int := 9223372036854775807
def unsignedMax : Int := 18446744073709551615

def isSigned (n : Int) : Bool := signedMin ≤ n && n ≤ signedMax

def isUnsigned (n : Int) : Bool := 0 ≤ n && n ≤ unsignedMax

/-- Equal kinds and equal quantities; the two zeros of the binary format are equal. -/
def same : Number → Number → Bool
  | int m, int n => m == n
  | float x, float y => x.same y
  | _, _ => false

/-- Equal quantities after rounding integers to the binary format. -/
def sameQuantity (a b : Number) : Bool := a.toBinary.same b.toBinary

end Number

inductive Value where
  | null
  | bool (b : Bool)
  | number (n : Number)
  | string (s : String)
  | array (items : List Value)
  | object (members : List (String × Value))
  deriving Inhabited

namespace Value

def int (n : Int) : Value := .number (.int n)

def ofNat (n : Nat) : Value := .int n

def isNull : Value → Bool
  | null => true
  | _ => false

def string? : Value → Option String
  | string s => some s
  | _ => none

def object? : Value → Option (Members Value)
  | object ms => some ms
  | _ => none

def array? : Value → Option (List Value)
  | array items => some items
  | _ => none

/-- The integer of a number that is a signed integer of 64 bits. -/
def signed? : Value → Option Int
  | number (.int n) => if Number.isSigned n then some n else none
  | _ => none

/-- The number of a non-negative integer. -/
def unsigned? : Value → Option Nat
  | number (.int n) => if Number.isUnsigned n then some n.toNat else none
  | _ => none

def number? : Value → Option Number
  | number n => some n
  | _ => none

/-- The member of an object, if there is one. -/
def member? (key : String) : Value → Option Value
  | object ms => Members.get? key ms
  | _ => none

/-- The name of the kind of a value in messages. -/
def kind : Value → String
  | null => "null"
  | bool _ => "boolean"
  | number _ => "number"
  | string _ => "string"
  | array _ => "array"
  | object _ => "object"

mutual

/-- Equality of values: members of objects in any order. -/
def same : Value → Value → Bool
  | null, null => true
  | bool a, bool b => a == b
  | number a, number b => a.same b
  | string a, string b => a == b
  | array xs, array ys => sameItems xs ys
  | object ms, object ns => ms.length == ns.length && sameMembers ms ns
  | _, _ => false

def sameItems : List Value → List Value → Bool
  | [], [] => true
  | x :: xs, y :: ys => x.same y && sameItems xs ys
  | _, _ => false

/-- Every member of the first object is in the second. -/
def sameMembers : List (String × Value) → List (String × Value) → Bool
  | [], _ => true
  | (k, v) :: ms, ns =>
    (match Members.get? k ns with
      | some w => v.same w
      | none => false) && sameMembers ms ns

end

end Value

end CommandContract
