import CommandContract.Number.Decimal
import CommandContract.Shell.Bytes

set_option autoImplicit false

/-!
# Formatted output

Texts with escapes, and formats that are used again until no argument is left. A number is written
in a base, or as a decimal that is rounded from the exact binary value.
-/
namespace CommandContract.Shell

/-! ## Escapes -/

def octalDigit? (c : Char) : Option Nat :=
  if '0' ≤ c ∧ c ≤ '7' then some (c.toNat - 48) else none

/-- The number of up to `most` octal digits, and what follows them. -/
def readOctal : Nat → Nat → List Char → Nat × List Char
  | 0, n, cs => (n, cs)
  | most + 1, n, c :: cs =>
    match octalDigit? c with
    | some d => readOctal most (8 * n + d) cs
    | none => (n, c :: cs)
  | _ + 1, n, [] => (n, [])

def controlChar? : Char → Option Char
  | 'a' => some '\x07'
  | 'b' => some '\x08'
  | 'f' => some '\x0c'
  | 'n' => some '\n'
  | 'r' => some '\r'
  | 't' => some '\t'
  | 'v' => some '\x0b'
  | '\\' => some '\\'
  | _ => none

/-- The characters of an escape behind its backslash, and what follows it. Numbers have three
digits; where `leadingZero` holds, a zero may stand in front of them. -/
def readEscape (leadingZero : Bool) : List Char → List Char × List Char
  | [] => (['\\'], [])
  | c :: cs =>
    match controlChar? c, octalDigit? c with
    | some d, _ => ([d], cs)
    | none, some _ =>
      let (n, rest) := readOctal 3 0 (if leadingZero && c = '0' then cs else c :: cs)
      ([byteChar n], rest)
    | none, none => (['\\', c], cs)

/-- The characters of a text with escapes; `\c` ends it, and everything behind it. -/
def unescape : Nat → List Char → List Char × Bool
  | 0, _ => ([], false)
  | _ + 1, [] => ([], false)
  | fuel + 1, '\\' :: cs =>
    if cs.head? = some 'c' then ([], true)
    else
      let (chars, rest) := readEscape true cs
      let (more, ended) := unescape fuel rest
      (chars ++ more, ended)
  | fuel + 1, c :: cs =>
    let (more, ended) := unescape fuel cs
    (c :: more, ended)

/-- What `echo` writes: escapes are replaced, and only `-n` is an option. -/
def echo (args : List String) : String :=
  let (newline, args) :=
    match args with
    | "-n" :: rest => ("", rest)
    | args => ("\n", args)
  let text := (Text.joinWith " " args).toList
  let (chars, ended) := unescape (text.length + 1) text
  String.ofList chars ++ (if ended then "" else newline)

/-! ## Numbers -/

/-- A number read from the beginning of a text. -/
structure Found (α : Type) where
  value : α
  /-- some of the text is a number -/
  any : Bool
  /-- all of it is -/
  all : Bool

/-- The integer at the beginning of a text, in any base; a quote in front of a character stands for
its code. -/
def leadingInteger (s : String) : Found Int :=
  match s.toList with
  | '"' :: c :: _ => ⟨c.toNat, true, true⟩
  | '\'' :: c :: _ => ⟨c.toNat, true, true⟩
  | cs =>
    let cs := cs.dropWhile isSpaceChar
    let (negative, body) :=
      match cs with
      | '-' :: r => (true, r)
      | '+' :: r => (false, r)
      | r => (false, r)
    let (base, digits) :=
      match body with
      | '0' :: x :: d :: rest =>
        if (x = 'x' ∨ x = 'X') ∧ isHexDigit d then (16, d :: rest) else (8, body)
      | '0' :: _ => (8, body)
      | body => (10, body)
    let (used, rest) := digits.span fun c => isDigitOf base c
    let n : Int := used.foldl (fun n c => n * base + digitValue c) 0
    ⟨if negative then -n else n, !used.isEmpty || s = "", rest.isEmpty⟩
where
  digitValue (c : Char) : Nat :=
    if c.isDigit then c.toNat - 48
    else if 'a' ≤ c ∧ c ≤ 'f' then c.toNat - 87
    else c.toNat - 55
  isHexDigit (c : Char) : Bool :=
    c.isDigit || ('a' ≤ c && c ≤ 'f') || ('A' ≤ c && c ≤ 'F')
  isDigitOf (base : Nat) (c : Char) : Bool := isHexDigit c && digitValue c < base

/-- The longest beginning of a text that is a decimal numeral. -/
def leadingNumeral (cs : List Char) : List Char :=
  let (sign, body) := cs.span fun c => c = '-' || c = '+'
  let (whole, rest) := body.span Char.isDigit
  let (fraction, rest) :=
    match rest with
    | '.' :: r =>
      let (ds, r) := r.span Char.isDigit
      ('.' :: ds, r)
    | r => ([], r)
  let exponent :=
    match rest with
    | e :: r =>
      let (sign, r) :=
        match r with
        | '-' :: t => (['-'], t)
        | '+' :: t => (['+'], t)
        | t => ([], t)
      let ds := r.takeWhile Char.isDigit
      if (e = 'e' ∨ e = 'E') ∧ !ds.isEmpty then e :: (sign ++ ds) else []
    | [] => []
  if sign.length > 1 ∨ (whole.isEmpty ∧ fraction.length < 2) then []
  else sign ++ whole ++ fraction ++ exponent

/-- The binary number at the beginning of a text. -/
def leadingBinary (s : String) : Found Binary64 :=
  match s.toList with
  | '"' :: c :: _ => ⟨Binary64.ofInt c.toNat, true, true⟩
  | '\'' :: c :: _ => ⟨Binary64.ofInt c.toNat, true, true⟩
  | cs =>
    let cs := cs.dropWhile isSpaceChar
    let numeral := leadingNumeral cs
    match (Decimal.ofText? numeral).bind Decimal.toBinary? with
    | some x => ⟨x, true, numeral.length = cs.length⟩
    | none => ⟨Binary64.ofInt 0, s = "", s = ""⟩

/-- Digits of the magnitude scaled by a power of ten, rounded to an integer. -/
def scaledDigits (x : Binary64) (places : Int) : List Char :=
  let (n, d) := x.ratio
  Nat.toDigits 10 (Binary64.roundQuotient (n * pow10 places.toNat) (d * pow10 (-places).toNat))

/-- With a number of places behind the point. -/
def fixedPoint (places : Nat) (x : Binary64) : List Char :=
  let digits := scaledDigits x places
  let digits := List.replicate (places + 1 - digits.length) '0' ++ digits
  let whole := digits.take (digits.length - places)
  if places = 0 then whole else whole ++ '.' :: digits.drop (digits.length - places)

/-- The decimal exponent and the digits of a number written with one digit in front of the point. -/
def exponentForm (places : Nat) (x : Binary64) : Int × List Char :=
  if x.isZero then (0, List.replicate (places + 1) '0')
  else
    let guess := (Decimal.shortest .toEven x).leading
    let digits := scaledDigits x (places - guess)
    if digits.length > places + 1 then (guess + 1, scaledDigits x (places - guess - 1))
    else (guess, digits)

def exponentText (e : Int) : List Char :=
  let digits := Nat.toDigits 10 e.natAbs
  (if e < 0 then '-' else '+') :: (List.replicate (2 - digits.length) '0' ++ digits)

def withPoint (digits : List Char) : List Char :=
  match digits with
  | [d] => [d]
  | d :: ds => d :: '.' :: ds
  | [] => []

def scientific (places : Nat) (x : Binary64) : List Char :=
  let (e, digits) := exponentForm places x
  withPoint digits ++ 'e' :: exponentText e

def dropZeros (cs : List Char) : List Char :=
  if cs.contains '.' then
    let cs := (cs.reverse.dropWhile (· = '0')).reverse
    if cs.getLast? = some '.' then cs.dropLast else cs
  else cs

/-- The shorter of both forms, with a number of significant digits and no zeros at the end. -/
def general (keepZeros : Bool) (significant : Nat) (x : Binary64) : List Char :=
  let p := max significant 1
  let (e, digits) := exponentForm (p - 1) x
  let strip := if keepZeros then id else dropZeros
  if e < -4 ∨ p ≤ e then strip (withPoint digits) ++ 'e' :: exponentText e
  else strip (fixedPoint ((p : Int) - 1 - e).toNat x)

/-! ## Formats -/

/-- What stands between the percent sign and the letter of a conversion. -/
structure Directive where
  flags : List Char
  width : Nat
  precision : Option Nat
  deriving DecidableEq, Repr

/-- Fills up to the width. Numbers may be filled with zeros behind their sign. -/
def Directive.fill (d : Directive) (isNumber : Bool) (sign body : List Char) : List Char :=
  let missing := d.width - (sign.length + body.length)
  if d.flags.contains '-' then sign ++ body ++ List.replicate missing ' '
  else if d.flags.contains '0' && isNumber then sign ++ List.replicate missing '0' ++ body
  else List.replicate missing ' ' ++ sign ++ body

def Directive.sign (d : Directive) (negative : Bool) : List Char :=
  if negative then ['-']
  else if d.flags.contains '+' then ['+']
  else if d.flags.contains ' ' then [' ']
  else []

/-- Digits of a number with at least as many as the precision asks for. -/
def Directive.digits (d : Directive) (base n : Nat) : List Char :=
  let digits := if n = 0 ∧ d.precision = some 0 then [] else Nat.toDigits base n
  List.replicate ((d.precision.getD 1) - digits.length) '0' ++ digits

def Directive.integer (d : Directive) (n : Int) : List Char :=
  let zeros := if d.precision.isSome then { d with flags := d.flags.filter (· ≠ '0') } else d
  zeros.fill true (d.sign (n < 0)) (d.digits 10 n.natAbs)

def Directive.unsigned (d : Directive) (base : Nat) (upper : Bool) (n : Int) : List Char :=
  let n := (n % (pow2 64 : Int)).toNat
  let zeros := if d.precision.isSome then { d with flags := d.flags.filter (· ≠ '0') } else d
  let digits := d.digits base n
  let digits := if upper then digits.map Char.toUpper else digits
  let lead :=
    if !d.flags.contains '#' ∨ n = 0 then []
    else if base = 16 then (if upper then ['0', 'X'] else ['0', 'x'])
    else if base = 8 ∧ digits.head? ≠ some '0' then ['0']
    else []
  zeros.fill true lead digits

def Directive.binary (d : Directive) (letter : Char) (x : Binary64) : List Char :=
  let places := d.precision.getD 6
  let body :=
    match letter.toLower with
    | 'e' => scientific places x
    | 'g' => general (d.flags.contains '#') places x
    | _ => fixedPoint places x
  let body := if letter.isUpper then body.map Char.toUpper else body
  d.fill true (d.sign x.negative) body

def Directive.string (d : Directive) (cs : List Char) : List Char :=
  d.fill false [] (match d.precision with
    | some n => cs.take n
    | none => cs)

/-- What a format has written so far, the arguments that are left, and what was said. -/
structure Formatted where
  chars : List Char
  args : List String
  warnings : List String
  /-- nothing more is written -/
  ended : Bool

def Formatted.add (f : Formatted) (cs : List Char) : Formatted := { f with chars := f.chars ++ cs }

def Formatted.drop (f : Formatted) : Formatted := { f with args := f.args.tail }

/-- Warns of an argument that is no number. -/
def Formatted.check {α : Type} (f : Formatted) (arg : String) (found : Found α) : Formatted :=
  if !found.any then { f with warnings := f.warnings ++ [arg ++ ": expected numeric value"] }
  else if !found.all then { f with warnings := f.warnings ++ [arg ++ ": not completely converted"] }
  else f

/-- A number written in the format, or the next argument for a star. -/
def readCount (f : Formatted) (cs : List Char) : Option Int × Formatted × List Char :=
  match cs with
  | '*' :: rest =>
    let found := leadingInteger (f.args.headD "")
    (some found.value, (f.check (f.args.headD "") found).drop, rest)
  | cs =>
    let (digits, rest) := cs.span Char.isDigit
    (if digits.isEmpty then none else some (Decimal.ofDigits digits), f, rest)

/-- Flags, width and precision, and what stands behind them. -/
def readDirective (f : Formatted) (cs : List Char) : Directive × Formatted × List Char :=
  let (flags, rest) := cs.span fun c => ['#', '-', '+', ' ', '0'].contains c
  let (width, f, rest) := readCount f rest
  let flags := if width.any (· < 0) then '-' :: flags else flags
  let width := (width.getD 0).natAbs
  match rest with
  | '.' :: rest =>
    let (precision, f, rest) := readCount f rest
    let precision := precision.getD 0
    (⟨flags, width, if precision < 0 then none else some precision.toNat⟩, f, rest)
  | rest => (⟨flags, width, none⟩, f, rest)

/-- Writes one argument; nothing for a letter that is no conversion. -/
def convert (f : Formatted) (d : Directive) (letter : Char) : Option Formatted :=
  let arg := f.args.headD ""
  let integer (write : Int → List Char) : Option Formatted :=
    let found := leadingInteger arg
    some ((f.check arg found).drop.add (write found.value))
  match letter with
  | 's' => some (f.drop.add (d.string arg.toList))
  | 'b' =>
    let (chars, ended) := unescape (arg.length + 1) arg.toList
    some { f.drop.add (d.string chars) with ended }
  | 'c' => some (f.drop.add (d.string [arg.toList.headD '\x00']))
  | 'd' => integer d.integer
  | 'i' => integer d.integer
  | 'u' => integer (d.unsigned 10 false)
  | 'o' => integer (d.unsigned 8 false)
  | 'x' => integer (d.unsigned 16 false)
  | 'X' => integer (d.unsigned 16 true)
  | c =>
    if ['e', 'E', 'f', 'F', 'g', 'G'].contains c then
      let found := leadingBinary arg
      some ((f.check arg found).drop.add (d.binary c found.value))
    else none

/-- One pass over a format. The text of a fault is the directive that is none. -/
def formatOnce : Nat → List Char → Formatted → Except (Formatted × String) Formatted
  | 0, _, f => .ok f
  | _ + 1, [], f => .ok f
  | fuel + 1, '\\' :: cs, f =>
    let (chars, rest) := readEscape false cs
    formatOnce fuel rest (f.add chars)
  | fuel + 1, '%' :: '%' :: cs, f => formatOnce fuel cs (f.add ['%'])
  | fuel + 1, '%' :: cs, f =>
    let (d, g, rest) := readDirective f cs
    match rest with
    | [] => .error (g, "missing format character")
    | c :: rest =>
      match convert g d c with
      | some h => if h.ended then .ok h else formatOnce fuel rest h
      | none =>
        .error (g, String.ofList ('%' :: cs.take (cs.length - rest.length)) ++ ": invalid directive")
  | fuel + 1, c :: cs, f => formatOnce fuel cs (f.add [c])

/-- A format is used again while it takes arguments and some are left. -/
def format (template : List Char) : Nat → Formatted → Except (Formatted × String) Formatted
  | 0, f => .ok f
  | fuel + 1, f =>
    match formatOnce (template.length + 1) template f with
    | .ok g =>
      if g.ended || g.args.isEmpty || g.args.length = f.args.length then .ok g
      else format template fuel g
    | .error e => .error e

end CommandContract.Shell
