import CommandContract.Literal
import CommandContract.Text.DecimalDigit

set_option autoImplicit false

/-!
# Argument tokens

The value of one argument as it was typed. A quoted token is a string; a bare one is a truth
value, `null`, a number or a literal in brackets if it has that form, and otherwise the text
itself.
-/
namespace CommandContract.Argument

/-- Resolves backslashes inside a quoted token; a lone one at the end stays. -/
def unescape : List Char → List Char
  | [] => []
  | ['\\'] => ['\\']
  | '\\' :: 'n' :: cs => '\n' :: unescape cs
  | '\\' :: 't' :: cs => '\t' :: unescape cs
  | '\\' :: 'r' :: cs => '\r' :: unescape cs
  | '\\' :: c :: cs => c :: unescape cs
  | c :: cs => c :: unescape cs

/-- The text inside a matching pair of quotes. -/
def unquote? : List Char → Option (List Char)
  | [] => none
  | q :: cs =>
    if (q = '"' ∨ q = '\'') ∧ cs.getLast? = some q then some (unescape cs.dropLast) else none

/-- An optional minus, digits of any script with an optional point, and an optional exponent. -/
def hasNumeralShape (cs : List Char) : Bool :=
  let body := (Text.dropLeading? ['-'] cs).getD cs
  let (whole, rest) := body.span Text.isDecimalDigit
  let (fraction, rest) :=
    match rest with
    | '.' :: rest => rest.span Text.isDecimalDigit
    | rest => ([], rest)
  !(whole.isEmpty && fraction.isEmpty) &&
    match rest with
    | [] => true
    | e :: rest =>
      (e = 'e' || e = 'E') &&
        let digits :=
          match rest with
          | '+' :: r => r
          | '-' :: r => r
          | r => r
        !digits.isEmpty && digits.all Text.isDecimalDigit

def number? (token : List Char) : Option Number :=
  if hasNumeralShape token then Number.ofNumeral? token else none

/-- The value of a literal in brackets or braces. -/
def container? (token : List Char) : Option Value :=
  match token with
  | '[' :: _ => (Literal.parseJsonFirst (String.ofList token)).toOption
  | '\x7b' :: _ => (Literal.parseJsonFirst (String.ofList token)).toOption
  | _ => none

/-- The value of a token without blanks around it. -/
def bareValue (token : List Char) : Value :=
  match Literal.wordValue? (String.ofList token) with
  | some v => v
  | none =>
    match number? token with
    | some n => .number n
    | none => (container? token).getD (.string (String.ofList token))

def tokenValue (raw : List Char) : Value :=
  let token := Text.trim raw
  match unquote? token with
  | some s => .string (String.ofList s)
  | none => bareValue token

end CommandContract.Argument
