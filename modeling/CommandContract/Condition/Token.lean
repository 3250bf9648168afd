import CommandContract.Json.Printer
import CommandContract.Literal
import CommandContract.Text.Diagnostic

set_option autoImplicit false

/-!
# Tokens of a condition

Operators, parentheses, literals and paths. A path is a bare word of letters, digits, `_`, `$`,
`.` and `-`, or any text inside double braces; four words are literals.
-/
namespace CommandContract.Condition

inductive Comparison where
  | eq
  | ne
  | lt
  | le
  | gt
  | ge
  deriving DecidableEq, Repr

inductive Token where
  | opening
  | closing
  | both
  | either
  | negation
  | comparison (op : Comparison)
  | literal (v : Value)
  | path (text : String)

inductive Fault where
  | unterminatedBraces
  | unterminatedString
  | invalidNumber (text : String)
  | unexpectedCharacter (c : Char)
  | expectedClosing
  | unexpectedEnd
  | expectedValue (token : Token)
  | unexpectedToken (token : Token)

def Comparison.shown : Comparison → String
  | eq => "Eq"
  | ne => "Ne"
  | lt => "Lt"
  | le => "Le"
  | gt => "Gt"
  | ge => "Ge"

/-- A literal as messages name it. -/
def shownLiteral : Value → String
  | .null => "Null"
  | .bool b => "Bool(" ++ (if b then "true" else "false") ++ ")"
  | .string s => "String(" ++ Text.shown s ++ ")"
  | .number n => "Number(" ++ String.ofList n.text ++ ")"
  | v => v.compact

def Token.shown : Token → String
  | opening => "LParen"
  | closing => "RParen"
  | both => "And"
  | either => "Or"
  | negation => "Not"
  | comparison op => "Cmp(" ++ op.shown ++ ")"
  | literal v => "Literal(" ++ shownLiteral v ++ ")"
  | path text => "Path(" ++ Text.shown text ++ ")"

def Fault.message : Fault → String
  | unterminatedBraces => "unterminated '\x7b\x7b'"
  | unterminatedString => "unterminated string"
  | invalidNumber text => "invalid number '" ++ text ++ "'"
  | unexpectedCharacter c => "unexpected character '" ++ c.toString ++ "'"
  | expectedClosing => "expected ')'"
  | unexpectedEnd => "unexpected end of expression"
  | expectedValue token => "expected a value, found " ++ token.shown
  | unexpectedToken token => "unexpected token " ++ token.shown

/-- The characters of a string up to its closing quote; a backslash takes the next character as it
is. -/
def readQuoted (quote : Char) : List Char → Option (List Char × List Char)
  | [] => none
  | '\\' :: c :: cs => (readQuoted quote cs).map (Prod.map (c :: ·) id)
  | c :: cs =>
    if c = quote then some ([], cs) else (readQuoted quote cs).map (Prod.map (c :: ·) id)

def isNumberChar (c : Char) : Bool := c.isDigit || c = '.' || c = 'e' || c = 'E'

def isWordChar (c : Char) : Bool := Literal.isWordChar c || c = '.' || c = '-'

/-- A number: a digit, or a minus and a digit, and all number characters behind. -/
def readNumber (first : Char) (cs : List Char) : Except Fault (Token × List Char) :=
  let (tail, rest) := cs.span isNumberChar
  match Number.ofNumeral? (first :: tail) with
  | some n => .ok (.literal (.number n), rest)
  | none => .error (.invalidNumber (String.ofList (first :: tail)))

def wordToken (word : String) : Token :=
  match Literal.wordValue? word with
  | some v => .literal v
  | none => .path word

/-- The token that begins with `c`, which is not blank. -/
def nextToken (c : Char) (cs : List Char) : Except Fault (Token × List Char) :=
  match c, cs with
  | '(', cs => .ok (.opening, cs)
  | ')', cs => .ok (.closing, cs)
  | '&', '&' :: cs => .ok (.both, cs)
  | '|', '|' :: cs => .ok (.either, cs)
  | '=', '=' :: '=' :: cs => .ok (.comparison .eq, cs)
  | '=', '=' :: cs => .ok (.comparison .eq, cs)
  | '!', '=' :: '=' :: cs => .ok (.comparison .ne, cs)
  | '!', '=' :: cs => .ok (.comparison .ne, cs)
  | '!', cs => .ok (.negation, cs)
  | '<', '=' :: cs => .ok (.comparison .le, cs)
  | '<', cs => .ok (.comparison .lt, cs)
  | '>', '=' :: cs => .ok (.comparison .ge, cs)
  | '>', cs => .ok (.comparison .gt, cs)
  | '\x7b', '\x7b' :: cs =>
    match Text.cutAtPair? '\x7d' '\x7d' cs with
    | some (inner, rest) => .ok (.path (String.ofList (Text.trim inner)), rest)
    | none => .error .unterminatedBraces
  | c, cs =>
    if c = '"' ∨ c = '\'' then
      match readQuoted c cs with
      | some (body, rest) => .ok (.literal (.string (String.ofList body)), rest)
      | none => .error .unterminatedString
    else if c.isDigit || (c = '-' && (cs.head?.map Char.isDigit).getD false) then readNumber c cs
    else if Literal.isWordStart c then
      let (word, rest) := (c :: cs).span isWordChar
      .ok (wordToken (String.ofList word), rest)
    else .error (.unexpectedCharacter c)

def tokensFrom : Nat → List Char → Except Fault (List Token)
  | 0, _ => .ok []
  | _ + 1, [] => .ok []
  | fuel + 1, c :: cs =>
    if Text.isBlank c then tokensFrom fuel cs
    else do
      let (token, rest) ← nextToken c cs
      let tokens ← tokensFrom fuel rest
      .ok (token :: tokens)

/-- Every token takes a character, so the length of the text bounds their number. -/
def tokenize (cs : List Char) : Except Fault (List Token) := tokensFrom cs.length cs

end CommandContract.Condition
