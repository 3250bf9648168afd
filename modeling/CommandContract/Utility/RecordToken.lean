import CommandContract.Number.Decimal
import CommandContract.Shell.Format

set_option autoImplicit false

/-!
# Tokens of record scripts

A line end is a token. A slash begins an expression between slashes unless it stands behind an
operand, where it divides.
-/
namespace CommandContract.Utility.RecordScript

open Shell (isNameStart isNameChar)

inductive Token where
  | number (x : Binary64)
  | text (cs : List Char)
  | regex (cs : List Char)
  | name (s : String)
  /-- a name with an opening parenthesis right behind it -/
  | called (s : String)
  | keyword (s : String)
  | symbol (s : String)
  | lineEnd
  deriving DecidableEq, Repr

/-- A token as it is named in a message. -/
def Token.shown : Token → String
  | number _ => "number"
  | text cs => "\"" ++ String.ofList cs ++ "\""
  | regex cs => "/" ++ String.ofList cs ++ "/"
  | name s => s
  | called s => s
  | keyword s => s
  | symbol s => s
  | lineEnd => "end of line"

def keywords : List String := [
  "BEGIN", "END", "function", "func", "if", "else", "while", "for", "do", "break", "continue", "next",
  "exit", "return", "delete", "in", "getline", "print", "printf", "length", "substr", "index", "split",
  "sub", "gsub", "match", "sprintf", "tolower", "toupper", "int", "sqrt", "close", "fflush"]

/-- Symbols, the longer ones first. -/
def symbols : List String := [
  "&&", "||", "++", "--", "+=", "-=", "*=", "/=", "%=", "^=", "==", "<=", ">=", "!=", "!~", ">>",
  "\x7b", "\x7d", "(", ")", "[", "]", ";", ",", "+", "-", "*", "/", "%", "^", "!", "<", ">", "|", "?",
  ":", "~", "$", "="]

/-- Behind such a token a slash divides. -/
def Token.isOperand : Token → Bool
  | number _ => true
  | text _ => true
  | name _ => true
  | symbol s => [")", "]", "$", "++", "--"].contains s
  | keyword s => s = "length"
  | _ => false

def hexDigit? (c : Char) : Option Nat :=
  if c.isDigit then some (c.toNat - 48)
  else if 'a' ≤ c ∧ c ≤ 'f' then some (c.toNat - 87)
  else if 'A' ≤ c ∧ c ≤ 'F' then some (c.toNat - 55)
  else none

/-- The characters of an escape behind its backslash, and what follows it. -/
def escaped (cs : List Char) : List Char × List Char :=
  match cs with
  | '"' :: cs => (['"'], cs)
  | '\n' :: cs => ([], cs)
  | 'x' :: a :: b :: rest =>
    match hexDigit? a, hexDigit? b with
    | some m, some n => ([Shell.byteChar (16 * m + n)], rest)
    | some m, none => ([Shell.byteChar m], b :: rest)
    | none, _ => (['\\', 'x'], a :: b :: rest)
  | cs => Shell.readEscape false cs

/-- The characters that a text stands for, up to a quotation mark if one ends it. -/
def quotedChars (isQuoted : Bool) :
    Nat → List Char → List Char → Option (List Char × List Char)
  | 0, _, _ => none
  | _ + 1, sofar, [] => if isQuoted then none else some (sofar.reverse, [])
  | fuel + 1, sofar, '\\' :: c :: cs =>
    let (chars, rest) := escaped (c :: cs)
    quotedChars isQuoted fuel (chars.reverse ++ sofar) rest
  | fuel + 1, sofar, c :: cs =>
    if isQuoted && c = '"' then some (sofar.reverse, cs)
    else if isQuoted && c = '\n' then none
    else quotedChars isQuoted fuel (c :: sofar) cs

/-- The text of an expression up to its slash. -/
def slashedChars : Bool → List Char → List Char → Option (List Char × List Char)
  | _, _, [] => none
  | _, _, '\n' :: _ => none
  | _, sofar, '\\' :: '/' :: cs => slashedChars false ('/' :: sofar) cs
  | inSet, sofar, '\\' :: c :: cs => slashedChars inSet (c :: '\\' :: sofar) cs
  | false, sofar, '/' :: cs => some (sofar.reverse, cs)
  | inSet, sofar, c :: cs =>
    slashedChars (if c = '[' then true else if c = ']' then false else inSet) (c :: sofar) cs

/-- The tokens of a script with their lines, or a message. -/
def tokens : Nat → Nat → Option Token → List Char → Except String (List (Token × Nat))
  | 0, _, _, _ => .ok []
  | fuel + 1, line, before, cs =>
    let add (t : Token) (rest : List Char) := do
      let more ← tokens fuel (if t = .lineEnd then line + 1 else line) (some t) rest
      return (t, line) :: more
    match cs with
    | [] => .ok []
    | '\\' :: '\n' :: rest => tokens fuel (line + 1) before rest
    | '\\' :: '\r' :: '\n' :: rest => tokens fuel (line + 1) before rest
    | '#' :: rest => tokens fuel line before (rest.dropWhile (· ≠ '\n'))
    | '\n' :: rest => add .lineEnd rest
    | '"' :: rest =>
      match quotedChars true (rest.length + 1) [] rest with
      | some (chars, rest) => add (.text chars) rest
      | none =>
        .error ("line " ++ toString line ++ ": runaway string constant \"" ++
          String.ofList ((rest.takeWhile (· ≠ '\n')).take 10) ++ " ...")
    | c :: rest =>
      if c = ' ' || c = '\t' || c = '\r' then tokens fuel line before rest
      else if c.isDigit || (c = '.' && (rest.head?.any Char.isDigit)) then
        let numeral := Shell.leadingNumeral (c :: rest)
        match (Decimal.ofText? numeral).bind Decimal.toBinary? with
        | some x => add (.number x) ((c :: rest).drop numeral.length)
        | none => .error ("line " ++ toString line ++ ": syntax error at or near " ++
            String.ofList numeral)
      else if isNameStart c then
        let name := String.ofList ((c :: rest).takeWhile isNameChar)
        let behind := (c :: rest).drop name.length
        if keywords.contains name then add (.keyword name) behind
        else if behind.head? = some '(' then add (.called name) behind
        else add (.name name) behind
      else if c = '/' && !(before.any Token.isOperand) then
        match slashedChars false [] rest with
        | some (chars, rest) => add (.regex chars) rest
        | none =>
          .error ("line " ++ toString line ++ ": runaway regular expression /" ++
            String.ofList ((rest.takeWhile (· ≠ '\n')).take 10) ++ " ...")
      else
        match symbols.find? fun s => (Text.dropLeading? s.toList cs).isSome with
        | some s => add (.symbol s) (cs.drop s.length)
        | none =>
          .error ("line " ++ toString line ++ ": unexpected character '" ++ String.ofList [c] ++ "'")

end CommandContract.Utility.RecordScript
