set_option autoImplicit false

/-!
# Bytes as text

The bytes of a text, and the text of any bytes: where they are no UTF-8, each longest beginning of
a character that is not completed reads as U+FFFD.
-/
namespace CommandContract.Text

def utf8 (s : String) : List Nat := s.toUTF8.toList.map UInt8.toNat

/-- A character that has begun: the bytes to come, the bounds of the next one, and the bits so far.
-/
structure Begun where
  left : Nat
  low : Nat
  high : Nat
  bits : Nat

/-- What a byte begins, if it begins a character of several bytes. -/
def begun? (b : Nat) : Option Begun :=
  if 0xC2 ≤ b ∧ b ≤ 0xDF then some ⟨0, 0x80, 0xBF, b - 0xC0⟩
  else if b = 0xE0 then some ⟨1, 0xA0, 0xBF, 0⟩
  else if b = 0xED then some ⟨1, 0x80, 0x9F, 0xD⟩
  else if 0xE1 ≤ b ∧ b ≤ 0xEF then some ⟨1, 0x80, 0xBF, b - 0xE0⟩
  else if b = 0xF0 then some ⟨2, 0x90, 0xBF, 0⟩
  else if b = 0xF4 then some ⟨2, 0x80, 0x8F, 4⟩
  else if 0xF1 ≤ b ∧ b ≤ 0xF3 then some ⟨2, 0x80, 0xBF, b - 0xF0⟩
  else none

/-- The characters of a byte that stands at the beginning of one, and what it begins. -/
def beginWith (b : Nat) : List Char × Option Begun :=
  if b < 0x80 then ([Char.ofNat b], none)
  else
    match begun? b with
    | some begun => ([], some begun)
    | none => (['\ufffd'], none)

/-- The characters that a byte completes, and what is begun behind it. -/
def continueWith (pending : Option Begun) (b : Nat) : List Char × Option Begun :=
  match pending with
  | none => beginWith b
  | some begun =>
    if begun.low ≤ b ∧ b ≤ begun.high then
      let bits := begun.bits * 64 + (b - 0x80)
      match begun.left with
      | 0 => ([Char.ofNat bits], none)
      | left + 1 => ([], some ⟨left, 0x80, 0xBF, bits⟩)
    else
      let (chars, pending) := beginWith b
      ('\ufffd' :: chars, pending)

def decodeFrom : Option Begun → List Nat → List Char
  | none, [] => []
  | some _, [] => ['\ufffd']
  | pending, b :: bs =>
    let (chars, pending) := continueWith pending b
    chars ++ decodeFrom pending bs

/-- The text of bytes. -/
def ofUtf8 (bytes : List Nat) : String := String.ofList (decodeFrom none bytes)

/-- The text of bytes that are the bytes of a text. -/
def ofUtf8? (bytes : List Nat) : Option String :=
  let text := ofUtf8 bytes
  if utf8 text = bytes then some text else none

end CommandContract.Text
