import CommandContract.Json.Reader
import CommandContract.Toml.Token

set_option autoImplicit false

/-!
# Pieces of text

What keys, strings, numbers and dates mean. Dates and numbers that are not finite keep only their
kind: no setting is one.
-/
namespace CommandContract.Toml

/-! ## Strings -/

/-- What follows a line break. -/
def newline? : List Char → Option (List Char)
  | '\n' :: cs => some cs
  | '\r' :: '\n' :: cs => some cs
  | _ => none

/-- The number spelled by exactly `n` hexadecimal digits. -/
def hexDigits? : Nat → Nat → List Char → Option (Nat × List Char)
  | 0, acc, cs => some (acc, cs)
  | _ + 1, _, [] => none
  | n + 1, acc, c :: cs => (Json.hexValue? c).bind fun d => hexDigits? n (acc * 16 + d) cs

def codePoint? (digits : Nat) (cs : List Char) : Option (Char × List Char) :=
  match hexDigits? digits 0 cs with
  | some (n, rest) => if n.isValidChar then some (Char.ofNat n, rest) else none
  | none => none

/-- The character behind a backslash. -/
def escape? : List Char → Option (Char × List Char)
  | 'b' :: cs => some ('\x08', cs)
  | 't' :: cs => some ('\t', cs)
  | 'n' :: cs => some ('\n', cs)
  | 'f' :: cs => some ('\x0c', cs)
  | 'r' :: cs => some ('\r', cs)
  | 'e' :: cs => some ('\x1b', cs)
  | '"' :: cs => some ('"', cs)
  | '\\' :: cs => some ('\\', cs)
  | 'x' :: cs => codePoint? 2 cs
  | 'u' :: cs => codePoint? 4 cs
  | 'U' :: cs => codePoint? 8 cs
  | _ => none

/-- Passes over blanks and line breaks. A carriage return that ends no line is left, and no string
may have it. -/
def skipBreaks : List Char → List Char
  | '\n' :: cs => skipBreaks cs
  | '\r' :: '\n' :: cs => skipBreaks cs
  | c :: cs => if isBlank c then skipBreaks cs else c :: cs
  | [] => []

/-- Passes over the blanks and line breaks behind a backslash that ends a line. -/
def skipLineEnd? (cs : List Char) : Option (List Char) :=
  (newline? (cs.dropWhile isBlank)).map skipBreaks

/-- The text between the quotes of a string with escapes. Line breaks are kept as they are, and only
a string of several lines has them. -/
def unescaped? (multiline : Bool) : Nat → List Char → Option (List Char)
  | 0, _ => none
  | _ + 1, [] => some []
  | fuel + 1, '\\' :: cs =>
    match if multiline then skipLineEnd? cs else none with
    | some rest => unescaped? multiline fuel rest
    | none => do
      let (c, rest) ← escape? cs
      let body ← unescaped? multiline fuel rest
      some (c :: body)
  | fuel + 1, '\r' :: '\n' :: cs =>
    if multiline then (unescaped? multiline fuel cs).map ('\r' :: '\n' :: ·) else none
  | fuel + 1, c :: cs =>
    if isTextChar c || (multiline && c = '\n') then (unescaped? multiline fuel cs).map (c :: ·)
    else none

/-- The text between the quotes of a string without escapes. -/
def verbatim? (multiline : Bool) : List Char → Option (List Char)
  | [] => some []
  | '\r' :: '\n' :: cs =>
    if multiline then (verbatim? multiline cs).map ('\r' :: '\n' :: ·) else none
  | c :: cs =>
    if isTextChar c || (multiline && c = '\n') then (verbatim? multiline cs).map (c :: ·) else none

/-- What stands between quotes, if they are all there. -/
def between? (quotes cs : List Char) : Option (List Char) :=
  (Text.dropLeading? quotes cs).bind (Text.dropTrailing? quotes)

/-- A line break behind the opening quotes is no part of the string. -/
def dropFirstBreak (cs : List Char) : List Char := (newline? cs).getD cs

/-- The text of a string in any of its four forms. -/
def string? (s : Scrap) : Option String :=
  let body :=
    match s.form with
    | .bare => none
    | .basic => (between? ['"'] s.raw).bind fun cs => unescaped? false (cs.length + 1) cs
    | .literal => (between? ['\''] s.raw).bind (verbatim? false)
    | .multilineBasic => (between? ['"', '"', '"'] s.raw).bind fun cs =>
        unescaped? true (cs.length + 1) (dropFirstBreak cs)
    | .multilineLiteral => (between? ['\'', '\'', '\''] s.raw).bind fun cs =>
        verbatim? true (dropFirstBreak cs)
  body.map String.ofList

/-! ## Keys -/

def isBareKeyChar (c : Char) : Bool := c.isAlphanum || c = '_' || c = '-'

/-- The name that a piece of text stands for as a simple key. -/
def name? (s : Scrap) : Option String :=
  match s.form with
  | .bare => if !s.raw.isEmpty && s.raw.all isBareKeyChar then some (String.ofList s.raw) else none
  | .basic => string? s
  | .literal => string? s
  | _ => none

/-! ## Scalars -/

/-- Digits, with single underscores between them. -/
def digits? (isDigit : Char → Bool) (cs : List Char) : Option (List Char) :=
  let groups := Text.splitOn '_' cs
  if groups.all fun g => !g.isEmpty && g.all isDigit then some groups.flatten else none

def baseValue (base : Nat) (cs : List Char) : Nat :=
  cs.foldl (fun n c => n * base + (Json.hexValue? c).getD 0) 0

def isOctal (c : Char) : Bool := '0' ≤ c && c ≤ '7'

def isBinary (c : Char) : Bool := c = '0' || c = '1'

/-- Digits without a zero in front. -/
def decimalDigits? (cs : List Char) : Option (List Char) :=
  (digits? Char.isDigit cs).filter fun ds => ds.length = 1 || ds.head? ≠ some '0'

def unsigned (cs : List Char) : List Char :=
  match cs with
  | '+' :: cs => cs
  | '-' :: cs => cs
  | cs => cs

def integer? (cs : List Char) : Option Value :=
  match cs with
  | '0' :: 'x' :: ds => (digits? (fun c => (Json.hexValue? c).isSome) ds).map
      fun ds => .int (baseValue 16 ds)
  | '0' :: 'o' :: ds => (digits? isOctal ds).map fun ds => .int (baseValue 8 ds)
  | '0' :: 'b' :: ds => (digits? isBinary ds).map fun ds => .int (baseValue 2 ds)
  | cs =>
    (decimalDigits? (unsigned cs)).map fun ds =>
      let n : Int := Decimal.ofDigits ds
      .int (if cs.head? = some '-' then -n else n)

/-- A number with a fraction, an exponent, or both. -/
def isFloat (cs : List Char) : Bool :=
  let body := unsigned cs
  if body = "inf".toList ∨ body = "nan".toList then true
  else
    let (whole, rest) := body.span fun c => c.isDigit || c = '_'
    let (fraction, rest) :=
      match rest with
      | '.' :: rest =>
        let (ds, rest) := rest.span fun c => c.isDigit || c = '_'
        (some ds, rest)
      | rest => (none, rest)
    let exponent :=
      match rest with
      | [] => some none
      | e :: rest => if e = 'e' ∨ e = 'E' then some (some (unsigned rest)) else none
    (decimalDigits? whole).isSome &&
      (match fraction with
        | some ds => (digits? Char.isDigit ds).isSome
        | none => true) &&
      match exponent with
      | none => false
      | some none => fraction.isSome
      | some (some ds) => (digits? Char.isDigit ds).isSome

def twoDigits? (cs : List Char) : Option (Nat × List Char) :=
  match cs with
  | a :: b :: rest =>
    if a.isDigit && b.isDigit then some (Decimal.ofDigits [a, b], rest) else none
  | _ => none

def monthLength (year month : Nat) : Nat :=
  if month = 2 then
    if year % 4 = 0 ∧ (year % 100 ≠ 0 ∨ year % 400 = 0) then 29 else 28
  else if [4, 6, 9, 11].contains month then 30
  else 31

def date? (cs : List Char) : Option (List Char) := do
  let (century, rest) ← twoDigits? cs
  let (years, rest) ← twoDigits? rest
  let rest ← Text.dropLeading? ['-'] rest
  let (month, rest) ← twoDigits? rest
  let rest ← Text.dropLeading? ['-'] rest
  let (day, rest) ← twoDigits? rest
  if 1 ≤ month ∧ month ≤ 12 ∧ 1 ≤ day ∧ day ≤ monthLength (century * 100 + years) month then
    some rest
  else none

/-- A time of day; seconds may be left out. -/
def time? (cs : List Char) : Option (List Char) := do
  let (hour, rest) ← twoDigits? cs
  let rest ← Text.dropLeading? [':'] rest
  let (minute, rest) ← twoDigits? rest
  if 23 < hour ∨ 59 < minute then none
  else
    match rest with
    | ':' :: rest => do
      let (second, rest) ← twoDigits? rest
      if 60 < second then none
      else
        match rest with
        | '.' :: rest =>
          let (ds, rest) := rest.span Char.isDigit
          if ds.isEmpty then none else some rest
        | rest => some rest
    | rest => some rest

def isOffset (cs : List Char) : Bool :=
  match cs with
  | [] => true
  | ['Z'] => true
  | ['z'] => true
  | s :: rest =>
    (s = '+' || s = '-') &&
      match twoDigits? rest with
      | some (hour, ':' :: rest) =>
        match twoDigits? rest with
        | some (minute, []) => hour ≤ 23 && minute ≤ 59
        | _ => false
      | _ => false

def isDateTime (cs : List Char) : Bool :=
  match date? cs with
  | some [] => true
  | some (t :: rest) =>
    (t = 'T' || t = 't' || t = ' ') &&
      match time? rest with
      | some rest => isOffset rest
      | none => false
  | none => time? cs = some []

/-- The number that a text with a fraction or an exponent is. A word stands for one that is not
finite and counts as zero; a number too large for the format counts as an integer as large. -/
def floatValue (cs : List Char) : Value :=
  let digits := cs.filter (· ≠ '_')
  if digits.all fun c => c.isDigit || ['+', '-', '.', 'e', 'E'].contains c then
    match (Decimal.ofText? digits).bind Decimal.toBinary? with
    | some x => .number (.float x)
    | none => .int (pow2 1024)
  else .number (.float (Binary64.ofInt 0))

def bareValue? (text : List Char) : Option Value :=
  if text = "true".toList then some (.bool true)
  else if text = "false".toList then some (.bool false)
  else
    match integer? text with
    | some v => some v
    | none =>
      if isFloat text then some (floatValue text)
      else if isDateTime text then some (.object [("datetime", .string (String.ofList text))])
      else none

def scalarValue? (s : Scrap) : Option Value :=
  match s.form with
  | .bare => bareValue? s.raw
  | _ => (string? s).map .string

end CommandContract.Toml
