set_option autoImplicit false

/-!
# Base64

The standard alphabet, with padding required and unused bits zero. The bytes of the text are read
in groups of four; only the last group may be padded. `Base64.encode` writes what `Base64.decode`
reads.
-/
namespace CommandContract.Base64

inductive Error where
  | symbol (byte offset : Nat)
  | lastSymbol (byte offset : Nat)
  | length (length : Nat)
  | padding
  deriving DecidableEq, Repr

def Error.message : Error → String
  | symbol byte offset => "Invalid symbol " ++ toString byte ++ ", offset " ++ toString offset ++ "."
  | lastSymbol byte offset =>
    "Invalid last symbol " ++ toString byte ++ ", offset " ++ toString offset ++ "."
  | length n => "Invalid input length: " ++ toString n
  | padding => "Invalid padding"

/-- The byte of `=`. -/
def pad : Nat := 61

/-- The six bits that a byte of the alphabet stands for. -/
def bits? (byte : Nat) : Option Nat :=
  if 65 ≤ byte ∧ byte ≤ 90 then some (byte - 65)
  else if 97 ≤ byte ∧ byte ≤ 122 then some (byte - 71)
  else if 48 ≤ byte ∧ byte ≤ 57 then some (byte + 4)
  else if byte = 43 then some 62
  else if byte = 47 then some 63
  else none

/-- The byte of the alphabet for six bits. -/
def symbol (bits : Nat) : Nat :=
  if bits < 26 then bits + 65
  else if bits < 52 then bits + 71
  else if bits < 62 then bits - 4
  else if bits = 62 then 43
  else 47

def need (offset byte : Nat) : Except Error Nat :=
  match bits? byte with
  | some bits => .ok bits
  | none => .error (.symbol byte offset)

def threeBytes (a b c d : Nat) : List Nat :=
  [a * 4 + b / 16, b % 16 * 16 + c / 4, c % 4 * 64 + d]

/-- The bits of the last group in front of its padding. Padding stands behind at least two symbols
and nothing follows it. -/
def lastSymbols (offset : Nat) : Nat → Option Nat → List Nat → Except Error (List Nat × Nat)
  | _, _, [] => .ok ([], 0)
  | index, firstPad, byte :: bytes =>
    if byte = pad then
      if index < 2 then .error (.symbol byte (offset + index))
      else do
        let (symbols, pads) ← lastSymbols offset (index + 1) (some (firstPad.getD index)) bytes
        .ok (symbols, pads + 1)
    else
      match firstPad with
      | some i => .error (.symbol pad (offset + i))
      | none => do
        let bits ← need (offset + index) byte
        let (symbols, pads) ← lastSymbols offset (index + 1) none bytes
        .ok (bits :: symbols, pads)

/-- The bytes of the last group, which has at most four characters. -/
def decodeLast (offset : Nat) (bytes : List Nat) : Except Error (List Nat) := do
  let (symbols, pads) ← lastSymbols offset 0 none bytes
  match symbols with
  | [a, b, c, d] => .ok (threeBytes a b c d)
  | [a, b, c] =>
    if pads ≠ 1 then .error .padding
    else if c % 4 ≠ 0 then .error (.lastSymbol (symbol c) (offset + 2))
    else .ok [a * 4 + b / 16, b % 16 * 16 + c / 4]
  | [a, b] =>
    if pads ≠ 2 then .error .padding
    else if b % 16 ≠ 0 then .error (.lastSymbol (symbol b) (offset + 1))
    else .ok [a * 4 + b / 16]
  | symbols => .error (.length (offset + symbols.length))

def decodeFrom (offset : Nat) : List Nat → Except Error (List Nat)
  | a :: b :: c :: d :: e :: rest => do
    let a ← need offset a
    let b ← need (offset + 1) b
    let c ← need (offset + 2) c
    let d ← need (offset + 3) d
    let tail ← decodeFrom (offset + 4) (e :: rest)
    .ok (threeBytes a b c d ++ tail)
  | [] => .ok []
  | bytes => decodeLast offset bytes

/-- A byte too many at the end is reported before any other. -/
def decode (bytes : List Nat) : Except Error (List Nat) :=
  match bytes.getLast? with
  | some last =>
    if bytes.length % 4 = 1 ∧ last ≠ pad ∧ bits? last = none then
      .error (.symbol last (bytes.length - 1))
    else decodeFrom 0 bytes
  | none => .ok []

def encode : List Nat → List Nat
  | a :: b :: c :: rest =>
    symbol (a / 4) :: symbol (a % 4 * 16 + b / 16) :: symbol (b % 16 * 4 + c / 64) ::
      symbol (c % 64) :: encode rest
  | [a, b] => [symbol (a / 4), symbol (a % 4 * 16 + b / 16), symbol (b % 16 * 4), pad]
  | [a] => [symbol (a / 4), symbol (a % 4 * 16), pad, pad]
  | [] => []

end CommandContract.Base64
