import CommandContract.Text.Pieces

set_option autoImplicit false

/-!
# Tokens of TOML

A document is cut into marks, blanks, line ends and pieces of text. A piece of text is kept as it is
written: whether a string is closed, and what a bare piece means, is settled later. Only two things
are refused here: a carriage return that ends no line, and a control character in a comment.
-/
namespace CommandContract.Toml

/-- How a piece of text is written. -/
inductive Form where
  | bare
  | basic
  | literal
  | multilineBasic
  | multilineLiteral
  deriving DecidableEq, Repr

/-- A piece of text as it is written, quotes included. -/
structure Scrap where
  form : Form
  raw : List Char
  deriving DecidableEq, Repr

/-- What stands where a piece of text is missing. -/
def Scrap.missing : Scrap := ⟨.bare, []⟩

inductive Token where
  | dot
  | equals
  | comma
  | openBracket
  | closeBracket
  | openBrace
  | closeBrace
  | blank (raw : List Char)
  | lineEnd
  | comment
  | scrap (s : Scrap)
  deriving DecidableEq, Repr

/-- Characters that may stand in comments and strings: no controls but the tab. -/
def isTextChar (c : Char) : Bool := c = '\t' || (0x20 ≤ c.toNat && c.toNat ≠ 0x7F)

def isBlank (c : Char) : Bool := c = ' ' || c = '\t'

/-- Ends a bare piece of text. -/
def isMark (c : Char) : Bool :=
  [' ', '\t', '\n', '\r', '.', '=', ',', '[', ']', '\x7b', '\x7d', '#'].contains c

/-- Up to and with the quote that closes a string of one line, or up to the end of the line. -/
def upToQuote (q : Char) (escapes : Bool) : List Char → List Char × List Char
  | [] => ([], [])
  | '\\' :: c :: cs =>
    if escapes && (c = '\\' || c = q) then
      let (body, rest) := upToQuote q escapes cs
      ('\\' :: c :: body, rest)
    else
      let (body, rest) := upToQuote q escapes (c :: cs)
      ('\\' :: body, rest)
  | c :: cs =>
    if c = q then ([c], cs)
    else if c = '\n' then ([], c :: cs)
    else
      let (body, rest) := upToQuote q escapes cs
      (c :: body, rest)

/-- Up to and with the three quotes that close a string of several lines; two more may follow. -/
def upToThree (q : Char) (escapes : Bool) : List Char → List Char × List Char
  | [] => ([], [])
  | '\\' :: c :: cs =>
    if escapes && (c = '\\' || c = q) then
      let (body, rest) := upToThree q escapes cs
      ('\\' :: c :: body, rest)
    else
      let (body, rest) := upToThree q escapes (c :: cs)
      ('\\' :: body, rest)
  | c :: cs =>
    if c = q ∧ cs.take 2 = [q, q] then
      let extra := ((cs.drop 2).take 2).takeWhile (· = q)
      (c :: q :: q :: extra, (cs.drop 2).drop extra.length)
    else
      let (body, rest) := upToThree q escapes cs
      (c :: body, rest)

/-- A string and what follows it, behind its opening quote. -/
def quoted (q : Char) (cs : List Char) : Scrap × List Char :=
  let escapes := q = '"'
  match cs with
  | a :: b :: rest =>
    if a = q ∧ b = q then
      let (body, rest) := upToThree q escapes rest
      (⟨if escapes then .multilineBasic else .multilineLiteral, q :: q :: q :: body⟩, rest)
    else
      let (body, rest) := upToQuote q escapes cs
      (⟨if escapes then .basic else .literal, q :: body⟩, rest)
  | cs =>
    let (body, rest) := upToQuote q escapes cs
    (⟨if escapes then .basic else .literal, q :: body⟩, rest)

/-- The mark that a character is. -/
def mark? : Char → Option Token
  | '.' => some .dot
  | '=' => some .equals
  | ',' => some .comma
  | '[' => some .openBracket
  | ']' => some .closeBracket
  | '\x7b' => some .openBrace
  | '\x7d' => some .closeBrace
  | '\n' => some .lineEnd
  | _ => none

/-- The first token of a text that is not empty, and what follows it. -/
def token? (c : Char) (cs : List Char) : Option (Token × List Char) :=
  match mark? c with
  | some t => some (t, cs)
  | none =>
    if isBlank c then
      let (more, rest) := cs.span isBlank
      some (.blank (c :: more), rest)
    else if c = '\r' then
      match cs with
      | '\n' :: rest => some (.lineEnd, rest)
      | _ => none
    else if c = '#' then
      let (body, rest) := cs.span fun c => c ≠ '\n' && c ≠ '\r'
      if body.all isTextChar then some (.comment, rest) else none
    else if c = '"' ∨ c = '\'' then
      let (s, rest) := quoted c cs
      some (.scrap s, rest)
    else
      let (more, rest) := cs.span fun c => !isMark c
      some (.scrap ⟨.bare, c :: more⟩, rest)

def tokensWithin : Nat → List Char → Option (List Token)
  | _, [] => some []
  | 0, _ :: _ => none
  | fuel + 1, c :: cs => do
    let (t, rest) ← token? c cs
    let ts ← tokensWithin fuel rest
    some (t :: ts)

/-- The tokens of a document. A byte order mark may open it. -/
def tokens? (cs : List Char) : Option (List Token) :=
  let cs := (Text.dropLeading? ['\ufeff'] cs).getD cs
  tokensWithin cs.length cs

end CommandContract.Toml
