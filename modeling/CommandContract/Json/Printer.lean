import CommandContract.Json.Value

set_option autoImplicit false

/-!
# JSON text

The compact text of a value has no blanks and escapes only quotes, backslashes and control
characters. Floats are written with the fewest digits that identify them, positionally while the
exponent of the leading digit is from -5 to 15. The indented text has one item or member a line.
-/
namespace CommandContract

def hexDigit (n : Nat) : Char := if n < 10 then Char.ofNat (48 + n) else Char.ofNat (87 + n)

def Binary64.text (x : Binary64) : List Char :=
  let d := Decimal.shortest .toEven x
  if x.isZero || (-5 ≤ d.leading && d.leading ≤ 15) then d.positional true else d.scientific

def Number.text : Number → List Char
  | .int n => if n < 0 then '-' :: Nat.toDigits 10 n.natAbs else Nat.toDigits 10 n.natAbs
  | .float x => x.text

namespace Json

/-- The written form of one character inside a quoted text. -/
def escapeChar (c : Char) : List Char :=
  if c = '"' then ['\\', '"']
  else if c = '\\' then ['\\', '\\']
  else if c = '\x08' then ['\\', 'b']
  else if c = '\x0c' then ['\\', 'f']
  else if c = '\n' then ['\\', 'n']
  else if c = '\r' then ['\\', 'r']
  else if c = '\t' then ['\\', 't']
  else if c.toNat < 0x20 then ['\\', 'u', '0', '0', hexDigit (c.toNat / 16), hexDigit (c.toNat % 16)]
  else [c]

def quoted (s : String) : List Char := '"' :: (s.toList.flatMap escapeChar ++ ['"'])

mutual

def write : Value → List Char
  | .null => ['n', 'u', 'l', 'l']
  | .bool true => ['t', 'r', 'u', 'e']
  | .bool false => ['f', 'a', 'l', 's', 'e']
  | .number n => n.text
  | .string s => quoted s
  | .array items => '[' :: writeItems items
  | .object members => '\x7b' :: writeMembers members

/-- The items up to the closing bracket. -/
def writeItems : List Value → List Char
  | [] => [']']
  | [v] => write v ++ [']']
  | v :: vs => write v ++ ',' :: writeItems vs

def writeMembers : List (String × Value) → List Char
  | [] => ['\x7d']
  | [(k, v)] => quoted k ++ ':' :: (write v ++ ['\x7d'])
  | (k, v) :: ms => quoted k ++ ':' :: (write v ++ ',' :: writeMembers ms)

end

def newline (level : Nat) : List Char := '\n' :: List.replicate (2 * level) ' '

mutual

/-- The text in which items and members stand on lines of their own, two blanks deeper than what
holds them. -/
def indent (level : Nat) : Value → List Char
  | .array [] => ['[', ']']
  | .object [] => ['\x7b', '\x7d']
  | .array items => '[' :: indentItems level items
  | .object members => '\x7b' :: indentMembers level members
  | v => write v

def indentItems (level : Nat) : List Value → List Char
  | [] => []
  | [v] => newline (level + 1) ++ indent (level + 1) v ++ newline level ++ [']']
  | v :: vs => newline (level + 1) ++ indent (level + 1) v ++ ',' :: indentItems level vs

def indentMembers (level : Nat) : List (String × Value) → List Char
  | [] => []
  | [(k, v)] =>
    newline (level + 1) ++ quoted k ++ ':' :: ' ' :: (indent (level + 1) v ++ newline level ++ ['\x7d'])
  | (k, v) :: ms =>
    newline (level + 1) ++ quoted k ++ ':' :: ' ' ::
      (indent (level + 1) v ++ ',' :: indentMembers level ms)

end

end Json

/-- The compact JSON text of a value. -/
def Value.compact (v : Value) : String := String.ofList (Json.write v)

/-- The indented JSON text of a value. -/
def Value.pretty (v : Value) : String := String.ofList (Json.indent 0 v)

end CommandContract
