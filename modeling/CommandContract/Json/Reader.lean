import CommandContract.Json.Numeral
import CommandContract.Text.Pieces

set_option autoImplicit false

/-!
# Reading JSON

The strict grammar: four blank characters, one quote, no leading zeros, no raw control characters,
no half of a surrogate pair, nothing after the value. A container may stand inside at most 126
others.
-/
namespace CommandContract.Json

/-- Containers that may be open at one time. -/
def maxDepth : Nat := 127

def isSpace (c : Char) : Bool := c = ' ' || c = '\n' || c = '\r' || c = '\t'

def skipSpace (cs : List Char) : List Char := cs.dropWhile isSpace

def hexValue? (c : Char) : Option Nat :=
  if '0' ≤ c ∧ c ≤ '9' then some (c.toNat - 48)
  else if 'a' ≤ c ∧ c ≤ 'f' then some (c.toNat - 87)
  else if 'A' ≤ c ∧ c ≤ 'F' then some (c.toNat - 55)
  else none

/-- Four hexadecimal digits, and what follows them. -/
def hexFour? : List Char → Option (Nat × List Char)
  | a :: b :: c :: d :: rest => do
    let a ← hexValue? a
    let b ← hexValue? b
    let c ← hexValue? c
    let d ← hexValue? d
    some (((a * 16 + b) * 16 + c) * 16 + d, rest)
  | _ => none

/-- The character that a letter behind a backslash stands for. -/
def unescape? : Char → Option Char
  | '"' => some '"'
  | '\\' => some '\\'
  | '/' => some '/'
  | 'b' => some '\x08'
  | 'f' => some '\x0c'
  | 'n' => some '\n'
  | 'r' => some '\r'
  | 't' => some '\t'
  | _ => none

/-- The character of a numeric escape; a leading surrogate needs the trailing one behind it. -/
def codePoint? (cs : List Char) : Option (Char × List Char) := do
  let (unit, rest) ← hexFour? cs
  if 0xDC00 ≤ unit ∧ unit < 0xE000 then none
  else if 0xD800 ≤ unit ∧ unit < 0xDC00 then
    match rest with
    | '\\' :: 'u' :: rest =>
      let (low, rest) ← hexFour? rest
      if 0xDC00 ≤ low ∧ low < 0xE000 then
        some (Char.ofNat (0x10000 + (unit - 0xD800) * 0x400 + (low - 0xDC00)), rest)
      else none
    | _ => none
  else some (Char.ofNat unit, rest)

/-- The characters up to the closing quote, and what follows it. -/
def readQuoted : Nat → List Char → Option (List Char × List Char)
  | 0, _ => none
  | _ + 1, [] => none
  | fuel + 1, c :: cs =>
    if c = '"' then some ([], cs)
    else if c = '\\' then
      match cs with
      | 'u' :: cs => do
        let (c, rest) ← codePoint? cs
        let (body, rest) ← readQuoted fuel rest
        some (c :: body, rest)
      | l :: cs => do
        let c ← unescape? l
        let (body, rest) ← readQuoted fuel cs
        some (c :: body, rest)
      | [] => none
    else if c.toNat < 0x20 then none
    else do
      let (body, rest) ← readQuoted fuel cs
      some (c :: body, rest)

def readString (cs : List Char) : Option (String × List Char) :=
  (readQuoted (cs.length + 1) cs).map fun (body, rest) => (String.ofList body, rest)

/-- Digits before the point: a zero stands alone. -/
def readWhole : List Char → Option (List Char × List Char)
  | '0' :: rest => some (['0'], rest)
  | cs =>
    let (digits, rest) := cs.span Char.isDigit
    if digits.isEmpty then none else some (digits, rest)

/-- Digits behind a point, if there is one. -/
def readFraction : List Char → Option (List Char × List Char)
  | '.' :: cs =>
    let (digits, rest) := cs.span Char.isDigit
    if digits.isEmpty then none else some (digits, rest)
  | cs => some ([], cs)

/-- The power of ten behind an exponent mark, if there is one. -/
def readExponent : List Char → Option (Option Int × List Char)
  | e :: cs =>
    if e = 'e' ∨ e = 'E' then
      let (negative, cs) :=
        match cs with
        | '-' :: r => (true, r)
        | '+' :: r => (false, r)
        | r => (false, r)
      let (digits, rest) := cs.span Char.isDigit
      if digits.isEmpty then none
      else
        let size : Int := Decimal.ofDigits digits
        some (some (if negative then -size else size), rest)
    else some (none, e :: cs)
  | [] => some (none, [])

/-- A numeral, and what follows it. -/
def readNumeral (cs : List Char) : Option (Numeral × List Char) := do
  let (negative, body) :=
    match cs with
    | '-' :: r => (true, r)
    | r => (false, r)
  let (whole, rest) ← readWhole body
  let (fraction, rest) ← readFraction rest
  let (exponent, rest) ← readExponent rest
  some (⟨negative, whole, fraction, exponent.getD 0, fraction.isEmpty && exponent.isNone⟩, rest)

def readNumber (cs : List Char) : Option (Number × List Char) := do
  let (numeral, rest) ← readNumeral cs
  let n ← numeral.number?
  some (n, rest)

mutual

/-- One value, with `depth` more containers allowed to open. -/
def readValue : Nat → Nat → List Char → Option (Value × List Char)
  | 0, _, _ => none
  | fuel + 1, depth, cs =>
    match cs with
    | 'n' :: 'u' :: 'l' :: 'l' :: rest => some (.null, rest)
    | 't' :: 'r' :: 'u' :: 'e' :: rest => some (.bool true, rest)
    | 'f' :: 'a' :: 'l' :: 's' :: 'e' :: rest => some (.bool false, rest)
    | '"' :: rest => (readString rest).map fun (s, rest) => (.string s, rest)
    | '[' :: rest =>
      match depth with
      | 0 => none
      | depth + 1 =>
        match skipSpace rest with
        | ']' :: rest => some (.array [], rest)
        | cs => (readItems fuel depth cs).map fun (items, rest) => (.array items, rest)
    | '\x7b' :: rest =>
      match depth with
      | 0 => none
      | depth + 1 =>
        (readObject fuel depth (skipSpace rest)).map fun (pairs, rest) =>
          (.object (Members.ofPairs pairs), rest)
    | cs => (readNumber cs).map fun (n, rest) => (.number n, rest)

/-- At least one item, up to the closing bracket. -/
def readItems : Nat → Nat → List Char → Option (List Value × List Char)
  | 0, _, _ => none
  | fuel + 1, depth, cs =>
    match readValue fuel depth cs with
    | none => none
    | some (v, rest) =>
      match skipSpace rest with
      | ']' :: rest => some ([v], rest)
      | ',' :: rest =>
        (readItems fuel depth (skipSpace rest)).map fun (vs, rest) => (v :: vs, rest)
      | _ => none

/-- The members of an object behind its opening brace, repeated names included. -/
def readObject : Nat → Nat → List Char → Option (List (String × Value) × List Char)
  | 0, _, _ => none
  | fuel + 1, depth, cs =>
    match cs with
    | '\x7d' :: rest => some ([], rest)
    | cs => readMembers fuel depth cs

/-- At least one member, up to the closing brace. -/
def readMembers : Nat → Nat → List Char → Option (List (String × Value) × List Char)
  | 0, _, _ => none
  | fuel + 1, depth, cs =>
    match cs with
    | '"' :: cs =>
      match readString cs with
      | none => none
      | some (key, rest) =>
        match skipSpace rest with
        | ':' :: rest =>
          match readValue fuel depth (skipSpace rest) with
          | none => none
          | some (v, rest) =>
            match skipSpace rest with
            | '\x7d' :: rest => some ([(key, v)], rest)
            | ',' :: rest =>
              (readMembers fuel depth (skipSpace rest)).map fun (ms, rest) => ((key, v) :: ms, rest)
            | _ => none
        | _ => none
    | _ => none

end

/-- Enough steps for any text: every step but two a container takes a character. -/
def steps (cs : List Char) : Nat := 3 * cs.length + 3

/-- The value that a whole text spells, with a bound on open containers. -/
def readWithin (depth : Nat) (cs : List Char) : Option Value :=
  match readValue (steps cs) depth (skipSpace cs) with
  | some (v, rest) => if (skipSpace rest).isEmpty then some v else none
  | none => none

def read (cs : List Char) : Option Value := readWithin maxDepth cs

/-! ## Records

The fields of a record are read as values. Members that are no fields are only passed over: they
follow the grammar, but may be nested deeper, hold numerals out of range, and escape half a
surrogate pair.
-/

/-- Passes over the characters up to the closing quote. -/
def skipQuoted : List Char → Option (List Char)
  | [] => none
  | '"' :: cs => some cs
  | '\\' :: 'u' :: a :: b :: c :: d :: cs =>
    if [a, b, c, d].all fun h => (hexValue? h).isSome then skipQuoted cs else none
  | '\\' :: l :: cs => if (unescape? l).isSome then skipQuoted cs else none
  | c :: cs => if c.toNat < 0x20 || c = '\\' then none else skipQuoted cs

inductive Container where
  | list
  | object
  deriving DecidableEq, Repr

/-- Passes over the name of a member and its colon. -/
def skipName (cs : List Char) : Option (List Char) :=
  match skipSpace cs with
  | '"' :: cs =>
    match (skipQuoted cs).map skipSpace with
    | some (':' :: rest) => some rest
    | _ => none
  | _ => none

/-- What a scan stands in front of. -/
inductive Due where
  | value
  | separator
  deriving DecidableEq, Repr

/-- Passes over what is left of a value inside the containers that are open. -/
def skipRest : Nat → List Container → Due → List Char → Option (List Char)
  | 0, _, _, _ => none
  | fuel + 1, frames, .value, cs =>
    match skipSpace cs with
    | 'n' :: 'u' :: 'l' :: 'l' :: rest => skipRest fuel frames .separator rest
    | 't' :: 'r' :: 'u' :: 'e' :: rest => skipRest fuel frames .separator rest
    | 'f' :: 'a' :: 'l' :: 's' :: 'e' :: rest => skipRest fuel frames .separator rest
    | '"' :: rest => (skipQuoted rest).bind (skipRest fuel frames .separator)
    | '[' :: rest =>
      match skipSpace rest with
      | ']' :: rest => skipRest fuel frames .separator rest
      | rest => skipRest fuel (.list :: frames) .value rest
    | '\x7b' :: rest =>
      match skipSpace rest with
      | '\x7d' :: rest => skipRest fuel frames .separator rest
      | rest => (skipName rest).bind (skipRest fuel (.object :: frames) .value)
    | cs => (readNumeral cs).bind fun (_, rest) => skipRest fuel frames .separator rest
  | _ + 1, [], .separator, cs => some cs
  | fuel + 1, frame :: frames, .separator, cs =>
    match skipSpace cs, frame with
    | ',' :: rest, .list => skipRest fuel (frame :: frames) .value rest
    | ',' :: rest, .object => (skipName rest).bind (skipRest fuel (frame :: frames) .value)
    | ']' :: rest, .list => skipRest fuel frames .separator rest
    | '\x7d' :: rest, .object => skipRest fuel frames .separator rest
    | _, _ => none

def skipValue (cs : List Char) : Option (List Char) :=
  skipRest (2 * cs.length + 2) [] .value cs

/-- The fields among the members of an object behind its opening brace, repeated ones included. -/
def readFields (names : List String) : Nat → List Char → Option (List (String × Value) × List Char)
  | 0, _ => none
  | fuel + 1, cs =>
    match cs with
    | '"' :: cs => do
      let (key, rest) ← readString cs
      let rest ← Text.dropLeading? [':'] (skipSpace rest)
      let (found, rest) ←
        if names.contains key then
          (readValue (steps rest) (maxDepth - 1) (skipSpace rest)).map fun (v, rest) =>
            ([(key, v)], rest)
        else (skipValue rest).map fun rest => ([], rest)
      match skipSpace rest with
      | '\x7d' :: rest => some (found, rest)
      | ',' :: rest =>
        (readFields names fuel (skipSpace rest)).map fun (more, rest) => (found ++ more, rest)
      | _ => none
    | _ => none

/-- The fields of the record that a whole text spells as an object; nothing for other texts. -/
def readFieldsOf (names : List String) (cs : List Char) : Option (List (String × Value)) :=
  match skipSpace cs with
  | '\x7b' :: rest =>
    let found :=
      match skipSpace rest with
      | '\x7d' :: rest => some ([], rest)
      | rest => readFields names (rest.length + 1) rest
    match found with
    | some (pairs, rest) => if (skipSpace rest).isEmpty then some pairs else none
    | none => none
  | _ => none

def isObjectText (cs : List Char) : Bool := (skipSpace cs).head? = some '\x7b'

end CommandContract.Json

namespace CommandContract

/-- The value of a JSON text, if it is one. -/
def Value.ofJson? (s : String) : Option Value := Json.read s.toList

end CommandContract
