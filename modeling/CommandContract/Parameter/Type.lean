import CommandContract.Json.Printer
import CommandContract.Json.Reader
import CommandContract.Number.Numeral
import CommandContract.Text.Blank
import CommandContract.Text.LetterCase
import CommandContract.Text.Pieces

set_option autoImplicit false

/-!
# Parameter types

A declared type is a union of the nine types below, joined by `|`. Its members are tried in one
fixed order, however they were written. `accepts` says which values a type can represent, `coerce`
gives the normal form.
-/
namespace CommandContract

inductive ParameterType where
  | blob
  | buffer
  | integer
  | number
  | boolean
  | array
  | object
  | string
  | any
  deriving DecidableEq, Repr

inductive CoercionError where
  | notBytes
  | notInteger (text : String)
  | outOfRange (text : String)
  | notFinite (text : String)
  | notJson (text : String)
  | unreadable (value : Value) (type : ParameterType)

namespace ParameterType

/-- Every type, the one that is tried first in front. -/
def all : List ParameterType :=
  [blob, buffer, integer, number, boolean, array, object, string, any]

def name : ParameterType → String
  | blob => "blob"
  | buffer => "buffer"
  | integer => "integer"
  | number => "number"
  | boolean => "boolean"
  | array => "array"
  | object => "object"
  | string => "string"
  | any => "any"

def ofName? (text : String) : Option ParameterType :=
  match Text.asciiLower text.trimBlank with
  | "blob" => some blob
  | "buffer" => some buffer
  | "integer" => some integer
  | "int" => some integer
  | "number" => some number
  | "float" => some number
  | "boolean" => some boolean
  | "bool" => some boolean
  | "array" => some array
  | "object" => some object
  | "string" => some string
  | "any" => some any
  | _ => none

def isNumeric (t : ParameterType) : Bool := t = integer || t = number

/-- The members that a declared union names, in the order they are tried; an unknown member is the
error. Empty members are skipped, and a union without members means `string`. -/
def union (declared : String) : Except String (List ParameterType) := do
  let pieces := (Text.splitOn '|' declared.toList).map fun p => String.ofList (Text.trim p)
  let named ← (pieces.filter (· ≠ "")).mapM fun piece =>
    match ofName? piece with
    | some t => .ok t
    | none => .error piece
  .ok (if named.isEmpty then [string] else all.filter named.contains)

/-- A minus or nothing, then ASCII digits, within 64 signed bits. -/
def integerText? (cs : List Char) : Option Int :=
  if cs.head? = some '+' then none else signedInteger? cs

def byte? (v : Value) : Option Nat := v.unsigned?.filter (· ≤ 255)

/-- The bytes of an array, or of the `data` of an object marked as a buffer. -/
def bytes? : Value → Option (List Nat)
  | .array items => items.mapM byte?
  | .object ms =>
    if (Members.get? "type" ms).bind Value.string? = some "Buffer" then
      ((Members.get? "data" ms).bind Value.array?).bind (·.mapM byte?)
    else none
  | _ => none

/-- Integral and strictly inside ±2^63. -/
def fitsSigned (x : Binary64) : Bool := x.isIntegral && x.units.natAbs < pow2 63 * Binary64.one

def blobKinds : List String := ["dataUrl", "base64", "path"]

def jsonInside? (s : String) : Option Value := Value.ofJson? s.trimBlank

def accepts : ParameterType → Value → Bool
  | blob, .string s => !s.isBlankText
  | blob, .object ms =>
    match (Members.get? "type" ms).bind Value.string? with
    | some kind => blobKinds.contains kind
    | none => false
  | blob, _ => false
  | buffer, v => (bytes? v).isSome
  | integer, .number (.int _) => true
  | integer, .number (.float x) => fitsSigned x
  | integer, .string s => (integerText? s.trimBlank.toList).isSome
  | integer, _ => false
  | number, .number _ => true
  | number, .string s => (finiteBinary? s.trimBlank.toList).isSome
  | number, _ => false
  | boolean, .bool _ => true
  | boolean, .string s => Text.sameLetters s "true" || Text.sameLetters s "false"
  | boolean, _ => false
  | array, .array _ => true
  | array, .string s => ((jsonInside? s).bind Value.array?).isSome
  | array, _ => false
  | object, .object _ => true
  | object, .string s => ((jsonInside? s).bind Value.object?).isSome
  | object, _ => false
  | string, .string _ => true
  | string, .number _ => true
  | string, .bool _ => true
  | string, _ => false
  | any, _ => true

def coerceInteger : Value → Except CoercionError Value
  | .number (.int n) => .ok (.int n)
  | .number (.float x) =>
    if fitsSigned x then .ok (.int x.truncate) else .error (.notInteger (String.ofList x.text))
  | .string s =>
    match signedInteger? s.trimBlank.toList with
    | some n => .ok (.int n)
    | none => .error (.outOfRange s)
  | v => .error (.unreadable v integer)

def coerceNumber : Value → Except CoercionError Value
  | .number n => .ok (.number n)
  | .string s =>
    match finiteBinary? s.trimBlank.toList, Number.ofNumeral? s.trimBlank.toList with
    | some _, some n => .ok (.number n)
    | _, _ => .error (.notFinite s)
  | v => .error (.unreadable v number)

def coerceBoolean : Value → Except CoercionError Value
  | .bool b => .ok (.bool b)
  | .string s => .ok (.bool (Text.sameLetters s "true"))
  | v => .error (.unreadable v boolean)

def coerceContainer : Value → Except CoercionError Value
  | .string s =>
    match jsonInside? s with
    | some v => .ok v
    | none => .error (.notJson s)
  | v => .ok v

def coerceString : Value → Except CoercionError Value
  | .string s => .ok (.string s)
  | .number n => .ok (.string (String.ofList n.text))
  | .bool b => .ok (.string (if b then "true" else "false"))
  | v => .error (.unreadable v string)

/-- The normal form of an accepted value. Blobs have a normal form of their own and pass as they
are. -/
def coerce : ParameterType → Value → Except CoercionError Value
  | blob, v => .ok v
  | any, v => .ok v
  | buffer, v =>
    match bytes? v with
    | some bytes => .ok (.array (bytes.map Value.ofNat))
    | none => .error .notBytes
  | integer, v => coerceInteger v
  | number, v => coerceNumber v
  | boolean, v => coerceBoolean v
  | array, v => coerceContainer v
  | object, v => coerceContainer v
  | string, v => coerceString v

end ParameterType

def CoercionError.message : CoercionError → String
  | notBytes => "expected an array of bytes"
  | notInteger text => text ++ " is not an integer"
  | outOfRange text => "'" ++ text ++ "' is out of integer range"
  | notFinite text => "'" ++ text ++ "' is not a finite number"
  | notJson text => "'" ++ text ++ "' is not valid JSON"
  | unreadable value type => "cannot read " ++ value.compact ++ " as " ++ type.name

end CommandContract
