import CommandContract.Text.Pieces

set_option autoImplicit false

/-!
# Separators outside quotes and brackets

`Argument.split` cuts a text at the separators that stand outside every quote and bracket;
brackets must match and quotes must be closed. `Argument.cutAtEquals?` finds the first such `=`
with a plain count of open brackets, whatever their kinds.
-/
namespace CommandContract.Argument

inductive SplitError where
  | unbalanced (close : Char)
  | unterminated (quote : Char)
  | unclosed (opening : Char)
  deriving DecidableEq, Repr

def SplitError.message : SplitError → String
  | unbalanced c => "unbalanced '" ++ c.toString ++ "'"
  | unterminated q => "unterminated " ++ q.toString ++ " quote"
  | unclosed c => "unclosed '" ++ c.toString ++ "'"

/-- Where a scan stands: in plain text, inside a quote, or behind a backslash inside a quote. -/
inductive Place where
  | plain
  | quoted (quote : Char)
  | escaped (quote : Char)
  deriving DecidableEq, Repr

def Place.next (quote c : Char) : Place :=
  if c = '\\' then .escaped quote else if c = quote then .plain else .quoted quote

def isQuote (c : Char) : Bool := c = '"' || c = '\''

def isOpening (c : Char) : Bool := c = '(' || c = '[' || c = '\x7b'

/-- The opening bracket that a closing one matches. -/
def opening? : Char → Option Char
  | ')' => some '('
  | ']' => some '['
  | '\x7d' => some '\x7b'
  | _ => none

/-- Puts a character in front of the first piece. -/
def consFirst (c : Char) : List (List Char) → List (List Char)
  | [] => [[c]]
  | piece :: pieces => (c :: piece) :: pieces

/-- The pieces of the rest of a text; the first continues the current one. The list holds the open
brackets, innermost first. -/
def splitFrom (sep : Char) : Place → List Char → List Char → Except SplitError (List (List Char))
  | .plain, [], [] => .ok [[]]
  | .plain, o :: _, [] => .error (.unclosed o)
  | .quoted q, _, [] => .error (.unterminated q)
  | .escaped q, _, [] => .error (.unterminated q)
  | .quoted q, stack, c :: cs => (splitFrom sep (.next q c) stack cs).map (consFirst c)
  | .escaped q, stack, c :: cs => (splitFrom sep (.quoted q) stack cs).map (consFirst c)
  | .plain, stack, c :: cs =>
    if isQuote c then (splitFrom sep (.quoted c) stack cs).map (consFirst c)
    else if isOpening c then (splitFrom sep .plain (c :: stack) cs).map (consFirst c)
    else
      match opening? c with
      | some o =>
        if stack.head? = some o then (splitFrom sep .plain stack.tail cs).map (consFirst c)
        else .error (.unbalanced c)
      | none =>
        if c = sep ∧ stack = [] then (splitFrom sep .plain [] cs).map ([] :: ·)
        else (splitFrom sep .plain stack cs).map (consFirst c)

def split (sep : Char) (cs : List Char) : Except SplitError (List (List Char)) :=
  splitFrom sep .plain [] cs

/-- What stands before and after the first `=` at depth zero. -/
def cutAtEqualsFrom : Place → Int → List Char → Option (List Char × List Char)
  | _, _, [] => none
  | .quoted q, depth, c :: cs => (cutAtEqualsFrom (.next q c) depth cs).map (Prod.map (c :: ·) id)
  | .escaped q, depth, c :: cs => (cutAtEqualsFrom (.quoted q) depth cs).map (Prod.map (c :: ·) id)
  | .plain, depth, c :: cs =>
    if isQuote c then (cutAtEqualsFrom (.quoted c) depth cs).map (Prod.map (c :: ·) id)
    else if isOpening c then (cutAtEqualsFrom .plain (depth + 1) cs).map (Prod.map (c :: ·) id)
    else if (opening? c).isSome then
      (cutAtEqualsFrom .plain (depth - 1) cs).map (Prod.map (c :: ·) id)
    else if c = '=' ∧ depth = 0 then some ([], cs)
    else (cutAtEqualsFrom .plain depth cs).map (Prod.map (c :: ·) id)

def cutAtEquals? (cs : List Char) : Option (List Char × List Char) := cutAtEqualsFrom .plain 0 cs

/-- The byte offset of the first `=` outside quotes and brackets. -/
def equalsOffset? (text : String) : Option Nat :=
  (cutAtEquals? text.toList).map fun (before, _) => Text.byteLength before

end CommandContract.Argument
