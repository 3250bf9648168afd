set_option autoImplicit false

/-!
# Pieces of a text

Cutting a text at a separator, joining pieces again, and measuring a text by the bytes of its
UTF-8 form, which is the unit of every reported offset.
-/
namespace CommandContract.Text

/-- The pieces between the occurrences of a separator, one more than there are occurrences. -/
def splitOn (sep : Char) : List Char → List (List Char)
  | [] => [[]]
  | c :: cs =>
    if c = sep then [] :: splitOn sep cs
    else
      match splitOn sep cs with
      | [] => [[c]]
      | piece :: pieces => (c :: piece) :: pieces

/-- What stands before and after the first occurrence of a separator. -/
def cutAt? (sep : Char) : List Char → Option (List Char × List Char)
  | [] => none
  | c :: cs =>
    if c = sep then some ([], cs)
    else (cutAt? sep cs).map fun (before, after) => (c :: before, after)

/-- What stands before and after the first occurrence of two neighbouring characters. -/
def cutAtPair? (x y : Char) : List Char → Option (List Char × List Char)
  | a :: b :: cs =>
    if a = x ∧ b = y then some ([], cs)
    else (cutAtPair? x y (b :: cs)).map fun (before, after) => (a :: before, after)
  | _ => none

def byteLength : List Char → Nat
  | [] => 0
  | c :: cs => c.utf8Size + byteLength cs

/-- The rest of a text that begins with the given one. -/
def dropLeading? (lead : List Char) (cs : List Char) : Option (List Char) :=
  if lead.isPrefixOf cs then some (cs.drop lead.length) else none

/-- The beginning of a text that ends with the given one. -/
def dropTrailing? (tail : List Char) (cs : List Char) : Option (List Char) :=
  if tail.isSuffixOf cs then some (cs.take (cs.length - tail.length)) else none

/-- The lines of a text. A line end may be two characters; what stands behind the last one is a line
if it is not empty. -/
def linesOf (text : String) : List String :=
  let pieces := splitOn '\n' text.toList
  let ended := pieces.dropLast.map fun p => (dropTrailing? ['\r'] p).getD p
  let last := (pieces.getLast?.toList).filter (!·.isEmpty)
  (ended ++ last).map String.ofList

/-- Fills a text with blanks on the right, up to a width in characters. -/
def padRight (width : Nat) (s : String) : String :=
  s ++ String.ofList (List.replicate (width - s.length) ' ')

def joinWith (sep : String) (pieces : List String) : String := String.intercalate sep pieces

end CommandContract.Text
