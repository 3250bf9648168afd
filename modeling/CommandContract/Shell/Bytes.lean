import CommandContract.Text.Pieces
import CommandContract.Text.Utf8

set_option autoImplicit false

/-!
# Texts of bytes

Scripts and the utilities they call work on bytes. A run of bytes is kept as a text whose characters
have the bytes as their codes; `ofText` and `toText` go over to the texts of the rest of the
library.
-/
namespace CommandContract.Shell

def ofBytes (bytes : List Nat) : String := String.ofList (bytes.map Char.ofNat)

def toBytes (s : String) : List Nat := s.toList.map Char.toNat

/-- The bytes of a text, as characters. -/
def ofText (s : String) : String := ofBytes (Text.utf8 s)

/-- The text that bytes spell. -/
def toText (s : String) : String := Text.ofUtf8 (toBytes s)

/-- The character of a byte; numbers beyond a byte are cut. -/
def byteChar (n : Nat) : Char := Char.ofNat (n % 256)

/-- Ends every line of a list. -/
def unlines (lines : List String) : String := String.join (lines.map (· ++ "\n"))

/-- The lines of a text, and whether the last one is ended. -/
def linesAndEnd (s : String) : List String × Bool :=
  let pieces := Text.splitOn '\n' s.toList
  match pieces.getLast? with
  | some [] => (pieces.dropLast.map String.ofList, true)
  | _ => (pieces.map String.ofList, false)

/-- The lines of a text; what stands behind the last line end is a line if it is not empty. -/
def lines (s : String) : List String := (linesAndEnd s).1

/-- A text without the line ends behind it. -/
def dropLineEnds (s : String) : String :=
  String.ofList (s.toList.reverse.dropWhile (· = '\n')).reverse

def isSpaceChar (c : Char) : Bool :=
  c = ' ' || c = '\t' || c = '\n' || c = '\r' || c = '\x0b' || c = '\x0c'

def isNameStart (c : Char) : Bool := c.isAlpha || c = '_'

def isNameChar (c : Char) : Bool := c.isAlphanum || c = '_'

def isName (s : String) : Bool :=
  match s.toList with
  | c :: cs => isNameStart c && cs.all isNameChar
  | [] => false

end CommandContract.Shell
