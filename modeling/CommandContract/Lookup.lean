import CommandContract.Json.Printer
import CommandContract.Number.Numeral
import CommandContract.Text.Blank
import CommandContract.Text.Pieces

set_option autoImplicit false

/-!
# Dotted paths into a value

A path names members of objects and places of arrays, joined by dots. The empty path is the value
itself. `Value.text` is how a found value reads inside a text.
-/
namespace CommandContract

/-- The place in an array that a segment names. -/
def placeOf? (segment : List Char) : Option Nat :=
  if segment.head? = some '-' then none
  else ((Decimal.integer? segment).filter Number.isUnsigned).map Int.toNat

namespace Value

def step? (segment : List Char) : Value → Option Value
  | object ms => Members.get? (String.ofList segment) ms
  | array items => (placeOf? segment).bind (items[·]?)
  | _ => none

def walk? (v : Value) : List (List Char) → Option Value
  | [] => some v
  | segment :: segments => (v.step? segment).bind (·.walk? segments)

def lookup? (v : Value) (path : String) : Option Value :=
  let path := Text.trim path.toList
  if path.isEmpty then some v else v.walk? (Text.splitOn '.' path)

/-- Strings as they are, `null` as nothing, other values as compact JSON. -/
def text : Value → String
  | null => ""
  | string s => s
  | v => v.compact

def textOf (found : Option Value) : String := (found.map text).getD ""

end Value

end CommandContract
