import CommandContract.Text.Printable

set_option autoImplicit false

/-!
# Texts in diagnostics

A text shown inside a message stands between double quotes, with every character that has no shape
of its own escaped.
-/
namespace CommandContract.Text

def escapeShown (c : Char) : List Char :=
  if c = '"' then ['\\', '"']
  else if c = '\\' then ['\\', '\\']
  else if c = '\n' then ['\\', 'n']
  else if c = '\r' then ['\\', 'r']
  else if c = '\t' then ['\\', 't']
  else if c = '\x00' then ['\\', '0']
  else if isPlain c then [c]
  else ['\\', 'u', '\x7b'] ++ Nat.toDigits 16 c.toNat ++ ['\x7d']

def shown (s : String) : String := String.ofList ('"' :: (s.toList.flatMap escapeShown ++ ['"']))

end CommandContract.Text
