import CommandContract.Text.Ranges

set_option autoImplicit false

/-!
# Blank characters

The 25 characters with the Unicode property White_Space. They separate words, may stand around
every token, and are trimmed from the ends of a text.
-/
namespace CommandContract.Text

/-- Closed ranges of code points, ascending and apart. -/
def blankRanges : List (Nat × Nat) := [
  (0x09, 0x0D), (0x20, 0x20), (0x85, 0x85), (0xA0, 0xA0), (0x1680, 0x1680), (0x2000, 0x200A),
  (0x2028, 0x2029), (0x202F, 0x202F), (0x205F, 0x205F), (0x3000, 0x3000)]

def isBlank (c : Char) : Bool := inRanges blankRanges c.toNat

theorem isBlank_of_isWhitespace {c : Char} (h : c.isWhitespace = true) : isBlank c = true := by
  simp [Char.isWhitespace] at h
  rcases h with ((h | h) | h) | h <;> subst h <;> decide

/-- The text from its first character that is not blank. -/
def trimStart (cs : List Char) : List Char := cs.dropWhile isBlank

def trimEnd (cs : List Char) : List Char := (cs.reverse.dropWhile isBlank).reverse

def trim (cs : List Char) : List Char := trimEnd (trimStart cs)

/-- The maximal runs of characters that are not blank. -/
def words (cs : List Char) : List (List Char) :=
  go cs []
where
  go : List Char → List Char → List (List Char)
    | [], [] => []
    | [], word => [word.reverse]
    | c :: cs, word =>
      if isBlank c then if word.isEmpty then go cs [] else word.reverse :: go cs []
      else go cs (c :: word)

end CommandContract.Text

namespace String

/-- The text without the blank characters at its two ends. -/
def trimBlank (s : String) : String := ofList (CommandContract.Text.trim s.toList)

/-- Nothing but blank characters. -/
def isBlankText (s : String) : Bool := s.toList.all CommandContract.Text.isBlank

end String
