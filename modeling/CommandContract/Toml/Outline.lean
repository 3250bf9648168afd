import CommandContract.Toml.Token

set_option autoImplicit false

/-!
# The outline of a document

How keys, values and headers stand together, with every piece of text still as it is written. Where
a key or a value is missing, an empty piece stands for it, which is refused when it is read. A value
may nest eighty arrays and tables.
-/
namespace CommandContract.Toml

/-- The simple keys between dots. -/
abbrev RawKey := List Scrap

inductive Outline where
  | scalar (s : Scrap)
  | array (items : List Outline)
  | table (members : List (RawKey × Outline))

/-- A line that is not blank. -/
inductive Line where
  | header (key : RawKey)
  | item (key : RawKey)
  | member (key : RawKey) (value : Outline)

/-- Arrays and tables that may be open inside one value. -/
def maxNesting : Nat := 80

def skipBlank : List Token → List Token
  | .blank _ :: ts => ts
  | ts => ts

def isSpacing : Token → Bool
  | .blank _ => true
  | .lineEnd => true
  | .comment => true
  | _ => false

/-- Passes over blanks, comments and line ends. -/
def skipLines (ts : List Token) : List Token := ts.dropWhile isSpacing

/-- The simple keys behind the first one, each behind a dot. -/
def moreKeys : Nat → List Token → RawKey × List Token
  | 0, ts => ([], ts)
  | fuel + 1, ts =>
    match skipBlank ts with
    | .dot :: ts =>
      match skipBlank ts with
      | .scrap s :: ts =>
        let (more, rest) := moreKeys fuel ts
        (s :: more, rest)
      | ts =>
        let (more, rest) := moreKeys fuel ts
        (.missing :: more, rest)
    | ts => ([], ts)

/-- A key, which begins with a piece of text or a dot, and what follows the blanks behind it. -/
def rawKey? (ts : List Token) : Option (RawKey × List Token) :=
  match ts with
  | .scrap s :: rest =>
    let (more, rest) := moreKeys rest.length rest
    some (s :: more, rest)
  | .dot :: _ =>
    let (more, rest) := moreKeys ts.length ts
    some (.missing :: more, rest)
  | _ => none

/-- Bare pieces and dots that go on a bare piece. -/
def joined : List Token → List Char × List Token
  | .dot :: ts =>
    let (cs, rest) := joined ts
    ('.' :: cs, rest)
  | .scrap ⟨.bare, raw⟩ :: ts =>
    let (cs, rest) := joined ts
    (raw ++ cs, rest)
  | ts => ([], ts)

/-- Four, two and two digits with hyphens between them. -/
def looksLikeDate (cs : List Char) : Bool :=
  cs.length = 10 && (cs.zipIdx.all fun (c, i) => if i = 4 || i = 7 then c = '-' else c.isDigit)

/-- A bare scalar and what follows it; a date may be joined to its time by a blank. -/
def bareScalar (ts : List Token) : Scrap × List Token :=
  let (text, rest) := joined ts
  match rest with
  | .blank [' '] :: .scrap ⟨.bare, d :: more⟩ :: behind =>
    if looksLikeDate text && d.isDigit then
      let (time, rest) := joined (.scrap ⟨.bare, d :: more⟩ :: behind)
      (⟨.bare, text ++ ' ' :: time⟩, rest)
    else (⟨.bare, text⟩, rest)
  | rest => (⟨.bare, text⟩, rest)

mutual

/-- A value, with `nesting` more arrays and tables allowed to open. -/
def outline? : Nat → Nat → List Token → Option (Outline × List Token)
  | 0, _, _ => none
  | fuel + 1, nesting, ts =>
    match ts with
    | .openBracket :: rest =>
      match nesting with
      | 0 => none
      | nesting + 1 => (outlineItems? fuel nesting rest).map (Prod.map .array id)
    | .openBrace :: rest =>
      match nesting with
      | 0 => none
      | nesting + 1 => (outlineMembers? fuel nesting rest).map (Prod.map .table id)
    | .scrap ⟨.bare, raw⟩ :: rest =>
      let (s, rest) := bareScalar (.scrap ⟨.bare, raw⟩ :: rest)
      some (.scalar s, rest)
    | .scrap s :: rest => some (.scalar s, rest)
    | .dot :: rest =>
      let (s, rest) := bareScalar (.dot :: rest)
      some (.scalar s, rest)
    | _ => none

/-- The items of an array up to its closing bracket. -/
def outlineItems? : Nat → Nat → List Token → Option (List Outline × List Token)
  | 0, _, _ => none
  | fuel + 1, nesting, ts =>
    match skipLines ts with
    | .closeBracket :: rest => some ([], rest)
    | ts => do
      let (v, rest) ← outline? fuel nesting ts
      match skipLines rest with
      | .comma :: rest =>
        let (vs, rest) ← outlineItems? fuel nesting rest
        some (v :: vs, rest)
      | .closeBracket :: rest => some ([v], rest)
      | _ => none

/-- The members of a table inside a line, up to its closing brace. -/
def outlineMembers? : Nat → Nat → List Token → Option (List (RawKey × Outline) × List Token)
  | 0, _, _ => none
  | fuel + 1, nesting, ts =>
    match skipLines ts with
    | .closeBrace :: rest => some ([], rest)
    | ts => do
      let (key, rest) :=
        match ts with
        | .equals :: _ => ([Scrap.missing], ts)
        | ts => (rawKey? ts).getD ([], ts)
      if key.isEmpty then none
      else
        match skipLines rest with
        | .equals :: rest => do
          let (v, rest) ← outline? fuel nesting (skipLines rest)
          match skipLines rest with
          | .comma :: rest =>
            let (more, rest) ← outlineMembers? fuel nesting rest
            some ((key, v) :: more, rest)
          | .closeBrace :: rest => some ([(key, v)], rest)
          | _ => none
        | _ => none

end

/-- What follows the end of a line, or of the document. -/
def endOfLine? (ts : List Token) : Option (List Token) :=
  let ts :=
    match skipBlank ts with
    | .comment :: ts => ts
    | ts => ts
  match ts with
  | [] => some []
  | .lineEnd :: ts => some ts
  | _ => none

/-- The value of a member; nothing behind the equals sign is a missing piece. -/
def memberValue? (ts : List Token) : Option (Outline × List Token) :=
  match skipBlank ts with
  | [] => some (.scalar .missing, [])
  | .lineEnd :: rest => some (.scalar .missing, .lineEnd :: rest)
  | .comment :: rest => some (.scalar .missing, .comment :: rest)
  | .comma :: rest => some (.scalar .missing, .comma :: rest)
  | ts => outline? (2 * ts.length + 2) maxNesting ts

/-- The key of a header. -/
def headerKey (ts : List Token) : RawKey × List Token :=
  let ts := skipBlank ts
  (rawKey? ts).getD ([Scrap.missing], ts)

def line? (ts : List Token) : Option (Line × List Token) :=
  match ts with
  | .openBracket :: .openBracket :: rest =>
    match headerKey rest with
    | (key, .closeBracket :: .closeBracket :: rest) => some (.item key, rest)
    | _ => none
  | .openBracket :: rest =>
    match headerKey rest with
    | (key, .closeBracket :: rest) => some (.header key, rest)
    | _ => none
  | ts => do
    let (key, rest) ←
      match ts with
      | .equals :: _ => some ([Scrap.missing], ts)
      | ts => rawKey? ts
    match rest with
    | .equals :: rest =>
      let (v, rest) ← memberValue? rest
      some (.member key v, rest)
    | _ => none

/-- The lines of a document that are not blank. -/
def linesWithin? : Nat → List Token → Option (List Line)
  | 0, _ => none
  | fuel + 1, ts =>
    match skipLines ts with
    | [] => some []
    | ts => do
      let (l, rest) ← line? ts
      let rest ← endOfLine? rest
      let ls ← linesWithin? fuel rest
      some (l :: ls)

def lines? (ts : List Token) : Option (List Line) := linesWithin? (ts.length + 1) ts

end CommandContract.Toml
