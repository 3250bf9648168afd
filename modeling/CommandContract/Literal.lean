import CommandContract.Json.Reader
import CommandContract.Number.Numeral
import CommandContract.Text.Blank
import CommandContract.Text.Letter
import CommandContract.Text.Pieces

set_option autoImplicit false

/-!
# Lenient literals

JSON with the conveniences that people type at a prompt: bare keys, strings in either quote, a
comma after the last item, `undefined` for `null`, and any Unicode blank between tokens. A reader
that stops keeps the input that was left, from which the offset of the failure is computed.
-/
namespace CommandContract.Literal

inductive Fault where
  | trailingInput
  | unexpectedEnd
  | unexpectedCharacter
  | unexpectedWord (word : String)
  | expectedKey
  | expectedColon
  | expectedSeparator (close : Char)
  | unterminatedString
  | unterminatedEscape
  | invalidUnicodeEscape
  | invalidNumber (text : String)
  deriving DecidableEq, Repr

def Fault.message : Fault → String
  | trailingInput => "unexpected trailing input"
  | unexpectedEnd => "unexpected end of input"
  | unexpectedCharacter => "unexpected character"
  | unexpectedWord word => "unexpected identifier '" ++ word ++ "'"
  | expectedKey => "expected object key"
  | expectedColon => "expected ':'"
  | expectedSeparator close => "expected ',' or '" ++ close.toString ++ "'"
  | unterminatedString => "unterminated string"
  | unterminatedEscape => "unterminated escape"
  | invalidUnicodeEscape => "invalid unicode escape"
  | invalidNumber text => "invalid number '" ++ text ++ "'"

/-- Where reading stopped: the fault, and the input from there on. -/
structure Stop where
  fault : Fault
  rest : List Char

structure Error where
  fault : Fault
  /-- in bytes of UTF-8 -/
  offset : Nat
  deriving DecidableEq, Repr

def Error.message (e : Error) : String := e.fault.message ++ " at offset " ++ toString e.offset

/-- The offset of a stop. A separator that is missing at the very end is reported at the last
character of the input. -/
def Stop.offset (input : List Char) (stop : Stop) : Nat :=
  match stop.fault, stop.rest with
  | .expectedSeparator _, [] => Text.byteLength input.dropLast
  | _, rest => Text.byteLength input - Text.byteLength rest

def skipBlank (cs : List Char) : List Char := cs.dropWhile Text.isBlank

def isWordStart (c : Char) : Bool := Text.isAlphabetic c || c = '_' || c = '$'

def isWordChar (c : Char) : Bool := Text.isAlphanumeric c || c = '_' || c = '$'

def isNumberStart (c : Char) : Bool := c.isDigit || c = '-' || c = '+' || c = '.'

def isNumberChar (c : Char) : Bool := isNumberStart c || c = 'e' || c = 'E'

/-- Up to four hexadecimal digits behind a numeric escape; a unit that is no character reads as
U+FFFD. The character that is no digit is passed over before the fault is reported. -/
def readUnit : Nat → Nat → List Char → Except Stop (Char × List Char)
  | 0, unit, cs =>
    .ok (if unit.isValidChar then Char.ofNat unit else '\ufffd', cs)
  | _ + 1, _, [] => .error ⟨.invalidUnicodeEscape, []⟩
  | n + 1, unit, c :: cs =>
    match Json.hexValue? c with
    | some d => readUnit n (unit * 16 + d) cs
    | none => .error ⟨.invalidUnicodeEscape, cs⟩

/-- The character that a letter behind a backslash stands for; any other stands for itself. -/
def unescape : Char → Char
  | 'n' => '\n'
  | 't' => '\t'
  | 'r' => '\r'
  | 'b' => '\x08'
  | 'f' => '\x0c'
  | '0' => '\x00'
  | c => c

/-- The characters of a string up to its closing quote. -/
def readQuoted (quote : Char) : Nat → List Char → Except Stop (List Char × List Char)
  | 0, cs => .error ⟨.unterminatedString, cs⟩
  | _ + 1, [] => .error ⟨.unterminatedString, []⟩
  | fuel + 1, c :: cs =>
    if c = quote then .ok ([], cs)
    else if c = '\\' then
      match cs with
      | [] => .error ⟨.unterminatedEscape, []⟩
      | 'u' :: cs => do
        let (c, rest) ← readUnit 4 0 cs
        let (body, rest) ← readQuoted quote fuel rest
        .ok (c :: body, rest)
      | l :: cs => do
        let (body, rest) ← readQuoted quote fuel cs
        .ok (unescape l :: body, rest)
    else do
      let (body, rest) ← readQuoted quote fuel cs
      .ok (c :: body, rest)

def readString (quote : Char) (cs : List Char) : Except Stop (String × List Char) := do
  let (body, rest) ← readQuoted quote (cs.length + 1) cs
  .ok (String.ofList body, rest)

def readNumber (cs : List Char) : Except Stop (Number × List Char) :=
  let (text, rest) := cs.span isNumberChar
  let text := (Text.dropLeading? ['+'] text).getD text
  match Number.ofNumeral? text with
  | some n => .ok (n, rest)
  | none => .error ⟨.invalidNumber (String.ofList text), cs⟩

/-- The value that a bare word names. -/
def wordValue? (word : String) : Option Value :=
  if word = "true" then some (.bool true)
  else if word = "false" then some (.bool false)
  else if word = "null" ∨ word = "undefined" then some .null
  else none

def readWord (cs : List Char) : Except Stop (Value × List Char) :=
  let (word, rest) := cs.span isWordChar
  match wordValue? (String.ofList word) with
  | some v => .ok (v, rest)
  | none => .error ⟨.unexpectedWord (String.ofList word), rest⟩

def readKey (cs : List Char) : Except Stop (String × List Char) :=
  match cs with
  | [] => .error ⟨.expectedKey, []⟩
  | c :: rest =>
    if c = '"' ∨ c = '\'' then readString c rest
    else if isWordStart c || c.isDigit then
      let (word, rest) := cs.span isWordChar
      .ok (String.ofList word, rest)
    else .error ⟨.expectedKey, cs⟩

mutual

def readValue : Nat → List Char → Except Stop (Value × List Char)
  | 0, cs => .error ⟨.unexpectedEnd, cs⟩
  | _ + 1, [] => .error ⟨.unexpectedEnd, []⟩
  | fuel + 1, c :: cs =>
    if c = '\x7b' then do
      let (pairs, rest) ← readMembers fuel (skipBlank cs)
      .ok (.object (Members.ofPairs pairs), rest)
    else if c = '[' then do
      let (items, rest) ← readItems fuel (skipBlank cs)
      .ok (.array items, rest)
    else if c = '"' ∨ c = '\'' then do
      let (s, rest) ← readString c cs
      .ok (.string s, rest)
    else if isNumberStart c then do
      let (n, rest) ← readNumber (c :: cs)
      .ok (.number n, rest)
    else if isWordStart c then readWord (c :: cs)
    else .error ⟨.unexpectedCharacter, c :: cs⟩

/-- The items from here to the closing bracket. -/
def readItems : Nat → List Char → Except Stop (List Value × List Char)
  | 0, cs => .error ⟨.unexpectedEnd, cs⟩
  | fuel + 1, cs =>
    match cs with
    | ']' :: rest => .ok ([], rest)
    | cs => do
      let (v, rest) ← readValue fuel cs
      match skipBlank rest with
      | ',' :: rest =>
        let (vs, rest) ← readItems fuel (skipBlank rest)
        .ok (v :: vs, rest)
      | ']' :: rest => .ok ([v], rest)
      | rest => .error ⟨.expectedSeparator ']', rest⟩

/-- The members from here to the closing brace, repeated names included. -/
def readMembers : Nat → List Char → Except Stop (List (String × Value) × List Char)
  | 0, cs => .error ⟨.unexpectedEnd, cs⟩
  | fuel + 1, cs =>
    match cs with
    | '\x7d' :: rest => .ok ([], rest)
    | cs => do
      let (key, rest) ← readKey cs
      match skipBlank rest with
      | ':' :: rest =>
        let (v, rest) ← readValue fuel (skipBlank rest)
        match skipBlank rest with
        | ',' :: rest =>
          let (ms, rest) ← readMembers fuel (skipBlank rest)
          .ok ((key, v) :: ms, rest)
        | '\x7d' :: rest => .ok ([(key, v)], rest)
        | rest => .error ⟨.expectedSeparator '\x7d', rest⟩
      | rest => .error ⟨.expectedColon, rest⟩

end

/-- Every two steps take a character. -/
def steps (cs : List Char) : Nat := 2 * cs.length + 2

/-- The value that a whole text spells, blanks around it allowed. -/
def readWhole (cs : List Char) : Except Stop Value := do
  let (v, rest) ← readValue (steps cs) (skipBlank cs)
  match skipBlank rest with
  | [] => .ok v
  | rest => .error ⟨.trailingInput, rest⟩

def parse (text : String) : Except Error Value :=
  match readWhole text.toList with
  | .ok v => .ok v
  | .error stop => .error ⟨stop.fault, stop.offset text.toList⟩

/-- Strict JSON if the text is that, else a lenient literal. -/
def parseJsonFirst (text : String) : Except Error Value :=
  match Value.ofJson? text with
  | some v => .ok v
  | none => parse text

end CommandContract.Literal
