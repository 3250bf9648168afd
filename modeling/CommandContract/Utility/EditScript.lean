import CommandContract.Utility.Regex

set_option autoImplicit false

/-!
# Edit scripts

The commands that a stream editor runs on every line, and how they are read. Blocks become one list
of commands: the opening one knows where its block ends.
-/
namespace CommandContract.Utility.EditScript

/-- An expression, or the one that was used last. -/
structure Pattern where
  regex : Option Regex
  foldsCase : Bool

inductive Address where
  | line (n : Nat)
  | last
  | every (first step : Nat)
  | pattern (p : Pattern)

/-- Where a range of lines ends. -/
inductive RangeEnd where
  | address (a : Address)
  | further (lines : Nat)
  | multiple (n : Nat)

structure Selection where
  first : Option Address
  stop : Option RangeEnd
  negated : Bool

/-- A change of the case of letters in a replacement. -/
inductive CaseChange where
  | upper
  | lower
  | upperNext
  | lowerNext
  | none
  deriving DecidableEq, Repr

inductive ReplacementPart where
  | text (c : Char)
  | group (n : Nat)
  | case (c : CaseChange)
  deriving DecidableEq, Repr

structure Substitution where
  pattern : Pattern
  replacement : List ReplacementPart
  /-- the match to begin with, from one -/
  first : Nat
  /-- the matches behind it too -/
  all : Bool
  prints : Bool
  target : Option String

inductive Action where
  | openBlock
  | closeBlock
  | label (name : String)
  | append (text : String)
  | insert (text : String)
  | change (text : String)
  | branch (name : String)
  | branchIfChanged (name : String)
  | branchUnlessChanged (name : String)
  | delete
  | deleteLine
  | get
  | getMore
  | hold
  | holdMore
  | exchange
  | show
  | next
  | nextMore
  | print
  | printLine
  | printNumber
  | printName
  | quit (status : Nat)
  | quitSilently (status : Nat)
  | readFile (path : String)
  | writeFile (path : String)
  | writeLine (path : String)
  | substitute (s : Substitution)
  | mapLetters (pairs : List (Char × Char))
  | clear

structure Instruction where
  selection : Selection
  action : Action
  /-- behind the end of the block that it opens -/
  stop : Nat

/-! ## Reading -/

structure Cursor where
  rest : List Char
  /-- the length of the whole text -/
  length : Nat
  groups : Nat

/-- A message about a place, or about the whole text. -/
structure Fault where
  place : Nat
  message : String

abbrev Reading := StateT Cursor (Except Fault)

def fail {α : Type} (message : String) : Reading α := do
  let c ← get
  throw ⟨c.length - c.rest.length, message⟩

def look : Reading (Option Char) := return (← get).rest.head?

def next? : Reading (Option Char) := do
  let c ← get
  match c.rest with
  | ch :: rest =>
    set { c with rest }
    return some ch
  | [] => return none

def skip (isSkipped : Char → Bool) : Reading Unit :=
  modify fun c => { c with rest := c.rest.dropWhile isSkipped }

def takeSpan (isTaken : Char → Bool) : Reading (List Char) := do
  let c ← get
  let (front, rest) := c.rest.span isTaken
  set { c with rest }
  return front

def isBlankChar (c : Char) : Bool := c = ' ' || c = '\t'

def numberOf (ds : List Char) : Nat := ds.foldl (fun n c => 10 * n + (c.toNat - 48)) 0

/-- The characters of brackets up to the closing one, with it, and what follows. -/
def bracketText : Nat → Bool → List Char → Option (List Char × List Char)
  | 0, _, _ => none
  | _ + 1, _, [] => none
  | fuel + 1, first, cs =>
    match Shell.className? cs with
    | some (_, rest) =>
      (bracketText fuel false rest).map fun (more, left) =>
        (cs.take (cs.length - rest.length) ++ more, left)
    | none =>
      match cs with
      | ']' :: rest =>
        if first then (bracketText fuel false rest).map fun (more, left) => (']' :: more, left)
        else some ([']'], rest)
      | '\\' :: 'n' :: rest =>
        (bracketText fuel false rest).map fun (more, left) => ('\n' :: more, left)
      | c :: rest => (bracketText fuel false rest).map fun (more, left) => (c :: more, left)
      | [] => none

/-- The text up to a delimiter. One that is escaped stands for itself; in an expression brackets are
taken as a whole. -/
def delimited (delimiter : Char) (isRegex : Bool) : Nat → List Char → Option (List Char × List Char)
  | 0, _ => none
  | _ + 1, [] => none
  | fuel + 1, '\\' :: c :: cs =>
    (delimited delimiter isRegex fuel cs).map fun (more, rest) =>
      if c = delimiter then (c :: more, rest)
      else if c = 'n' && isRegex then ('\n' :: more, rest)
      else ('\\' :: c :: more, rest)
  | fuel + 1, c :: cs =>
    if c = delimiter then some ([], cs)
    else if c = '\n' && isRegex then none
    else if c = '[' && isRegex then
      let (lead, body) := match cs with
        | '^' :: body => (['[', '^'], body)
        | body => (['['], body)
      match bracketText (body.length + 1) true body with
      | none => none
      | some (inside, rest) =>
        (delimited delimiter isRegex fuel rest).map fun (more, rest) => (lead ++ inside ++ more, rest)
    else (delimited delimiter isRegex fuel cs).map fun (more, rest) => (c :: more, rest)

def takeDelimited (delimiter : Char) (isRegex : Bool) (fault : String) : Reading (List Char) := do
  let c ← get
  match delimited delimiter isRegex (c.rest.length + 1) c.rest with
  | some (text, rest) =>
    set { c with rest }
    return text
  | none =>
    set { c with rest := [] }
    fail fault

/-- Reads an expression; an empty one is the one used last. -/
def patternOf (n : Regex.Notation) (text : List Char) (foldsCase : Bool) : Reading Pattern := do
  if text.isEmpty then return ⟨none, foldsCase⟩
  else
    match Regex.ofText n (String.ofList text) with
    | .ok (r, groups) =>
      modify fun c => { c with groups }
      return ⟨some r, foldsCase⟩
    | .error message => fail message

/-- An address, if one comes next. -/
def address? (n : Regex.Notation) : Reading (Option Address) := do
  match ← look with
  | none => return none
  | some c =>
    if c.isDigit then
      let first := numberOf (← takeSpan Char.isDigit)
      if (← look) = some '~' then
        let _ ← next?
        let step := numberOf (← takeSpan Char.isDigit)
        return some (if step = 0 then .line first else .every first step)
      else return some (.line first)
    else if c = '$' then
      let _ ← next?
      return some .last
    else if c = '/' || c = '\\' then
      let _ ← next?
      let delimiter ← if c = '/' then pure '/' else
        match ← next? with
        | some d => pure d
        | none => fail "unexpected end of file"
      let text ← takeDelimited delimiter true "unterminated address regex"
      let folds ← if (← look) = some 'I' then do
          let _ ← next?
          pure true
        else pure false
      return some (.pattern (← patternOf n text folds))
    else return none

def rangeEnd (n : Regex.Notation) : Reading RangeEnd := do
  match ← look with
  | some '+' =>
    let _ ← next?
    return .further (numberOf (← takeSpan Char.isDigit))
  | some '~' =>
    let _ ← next?
    return .multiple (numberOf (← takeSpan Char.isDigit))
  | _ =>
    match ← address? n with
    | some a => return .address a
    | none => do
      let _ ← next?
      fail "unexpected \x60,'"

/-- The addresses in front of a command. -/
def selection (n : Regex.Notation) : Reading Selection := do
  let first ← address? n
  skip isBlankChar
  let stop ←
    if first.isSome && (← look) = some ',' then do
      let _ ← next?
      skip isBlankChar
      pure (some (← rangeEnd n))
    else pure none
  match first, stop with
  | some (.line 0), some (.address (.pattern _)) => pure ()
  | some (.line 0), _ => do
    let _ ← next?
    fail "invalid usage of line address 0"
  | _, _ => pure ()
  skip isBlankChar
  let negated ← if (← look) = some '!' then do
      let _ ← next?
      skip isBlankChar
      pure true
    else pure false
  if negated && (← look) = some '!' then
    let _ ← next?
    fail "multiple \x60!'s"
  return ⟨first, stop, negated⟩

/-- What may follow a command. -/
def endOfCommand : Reading Unit := do
  skip fun c => isBlankChar c || c = '\r'
  match ← look with
  | none => pure ()
  | some '\n' => let _ ← next?
  | some ';' => let _ ← next?
  | some '\x7d' => pure ()
  | some '#' => pure ()
  | some _ => do
    let _ ← next?
    fail "extra characters after command"

/-- A text up to the first line end that no backslash hides; backslashes are taken off. -/
def textLines : Nat → List Char → List Char × List Char
  | 0, cs => ([], cs)
  | _ + 1, [] => ([], [])
  | _ + 1, ['\\'] => ([], [])
  | fuel + 1, '\\' :: c :: cs =>
    let (more, rest) := textLines fuel cs
    (c :: more, rest)
  | _ + 1, '\n' :: cs => ([], cs)
  | fuel + 1, c :: cs =>
    let (more, rest) := textLines fuel cs
    (c :: more, rest)

/-- The text of a command that adds one: behind a backslash and a line end, or on the line itself.
-/
def addedText : Reading String := do
  skip isBlankChar
  match (← get).rest with
  | [] => fail "expected \\ after \x60a', \x60c' or \x60i'"
  | '\\' :: rest =>
    let behind := rest.dropWhile isBlankChar
    match behind with
    | '\n' :: rest => modify fun c => { c with rest }
    | _ => modify fun c => { c with rest := behind }
  | _ => pure ()
  let c ← get
  let (text, rest) := textLines (c.rest.length + 1) c.rest
  set { c with rest }
  return String.ofList text ++ "\n"

/-- The rest of the line, as a name. -/
def restOfLine : Reading String := do
  skip isBlankChar
  let text ← takeSpan (· ≠ '\n')
  let _ ← next?
  return String.ofList text

def fileName : Reading String := do
  let name ← restOfLine
  if name = "" then fail "missing filename in r/R/w/W commands" else return name

/-- A label ends at a blank or a semicolon. -/
def labelName : Reading String := do
  skip isBlankChar
  let text ← takeSpan fun c => c ≠ '\n' && c ≠ ';' && !isBlankChar c
  return String.ofList text

/-- The parts of a replacement. -/
def replacementParts : Nat → List Char → List ReplacementPart
  | 0, _ => []
  | _ + 1, [] => []
  | fuel + 1, '\\' :: c :: cs =>
    let part : ReplacementPart :=
      match c with
      | 'n' => .text '\n'
      | 't' => .text '\t'
      | 'r' => .text '\r'
      | 'f' => .text '\x0c'
      | 'v' => .text '\x0b'
      | 'a' => .text '\x07'
      | 'U' => .case .upper
      | 'L' => .case .lower
      | 'u' => .case .upperNext
      | 'l' => .case .lowerNext
      | 'E' => .case .none
      | c => if c.isDigit then .group (c.toNat - 48) else .text c
    part :: replacementParts fuel cs
  | fuel + 1, '&' :: cs => .group 0 :: replacementParts fuel cs
  | fuel + 1, c :: cs => .text c :: replacementParts fuel cs

/-- What stands behind the last delimiter of a substitution. -/
structure Marks where
  first : Option Nat
  all : Bool
  prints : Bool
  foldsCase : Bool
  target : Option String

def marks : Nat → Marks → Reading Marks
  | 0, m => return m
  | fuel + 1, m => do
    match ← look with
    | none => return m
    | some c =>
      if c.isDigit then
        let n := numberOf (← takeSpan Char.isDigit)
        if n = 0 then fail "number option to \x60s' command may not be zero"
        else if m.first.isSome then fail "multiple number options to \x60s' command"
        else marks fuel { m with first := some n }
      else
        match c with
        | 'g' =>
          let _ ← next?
          if m.all then fail "multiple \x60g' options to \x60s' command"
          else marks fuel { m with all := true }
        | 'p' =>
          let _ ← next?
          if m.prints then fail "multiple \x60p' options to \x60s' command"
          else marks fuel { m with prints := true }
        | 'i' => let _ ← next?; marks fuel { m with foldsCase := true }
        | 'I' => let _ ← next?; marks fuel { m with foldsCase := true }
        | 'm' => let _ ← next?; marks fuel m
        | 'M' => let _ ← next?; marks fuel m
        | 'w' =>
          let _ ← next?
          return { m with target := some (← fileName) }
        | c =>
          if isBlankChar c || c = '\n' || c = ';' || c = '\x7d' || c = '#' || c = '\r' then
            endOfCommand
            return m
          else
            let _ ← next?
            fail "unknown option to \x60s'"

def substitution (n : Regex.Notation) : Reading Action := do
  let fault := "unterminated \x60s' command"
  match ← next? with
  | none => fail fault
  | some delimiter =>
    let text ← takeDelimited delimiter true fault
    let new ← takeDelimited delimiter false fault
    let m ← marks (← get).rest.length.succ ⟨none, false, false, false, none⟩
    let pattern ← patternOf n text m.foldsCase
    let parts := replacementParts (new.length + 1) new
    let groups := (← get).groups
    for part in parts do
      match part with
      | .group k =>
        if k > groups && pattern.regex.isSome then
          fail ("invalid reference \\" ++ toString k ++ " on \x60s' command's RHS")
      | _ => pure ()
    return .substitute ⟨pattern, parts, m.first.getD 1, m.all, m.prints, m.target⟩

/-- The characters of a table, escapes replaced. -/
def tableChars : List Char → List Char
  | '\\' :: '\\' :: cs => '\\' :: tableChars cs
  | '\\' :: 'n' :: cs => '\n' :: tableChars cs
  | '\\' :: 't' :: cs => '\t' :: tableChars cs
  | c :: cs => c :: tableChars cs
  | [] => []

def letterMap : Reading Action := do
  let fault := "unterminated \x60y' command"
  match ← next? with
  | none => fail fault
  | some delimiter =>
    let old := tableChars (← takeDelimited delimiter false fault)
    let new := tableChars (← takeDelimited delimiter false fault)
    if old.length ≠ new.length then fail "strings for \x60y' command are different lengths"
    else
      endOfCommand
      return .mapLetters (old.zip new)

def exitStatus : Reading Nat := do
  skip isBlankChar
  let digits ← takeSpan Char.isDigit
  endOfCommand
  return numberOf digits

def plain (a : Action) : Reading Action := do
  endOfCommand
  return a

/-- The command behind its addresses. -/
def action (n : Regex.Notation) (isSelected : Bool) : Reading Action := do
  match ← next? with
  | none => fail "missing command"
  | some c =>
    match c with
    | '\x7b' => return .openBlock
    | '\x7d' =>
      if isSelected then fail "\x7d doesn't want any addresses"
      else plain .closeBlock
    | ':' =>
      if isSelected then fail ": doesn't want any addresses"
      else
        let name ← labelName
        if name = "" then fail "\":\" lacks a label"
        else return .label name
    | 'a' => return .append (← addedText)
    | 'i' => return .insert (← addedText)
    | 'c' => return .change (← addedText)
    | 'b' => let name ← labelName; plain (.branch name)
    | 't' => let name ← labelName; plain (.branchIfChanged name)
    | 'T' => let name ← labelName; plain (.branchUnlessChanged name)
    | 'd' => plain .delete
    | 'D' => plain .deleteLine
    | 'g' => plain .get
    | 'G' => plain .getMore
    | 'h' => plain .hold
    | 'H' => plain .holdMore
    | 'x' => plain .exchange
    | 'l' => plain .show
    | 'n' => plain .next
    | 'N' => plain .nextMore
    | 'p' => plain .print
    | 'P' => plain .printLine
    | '=' => plain .printNumber
    | 'F' => plain .printName
    | 'z' => plain .clear
    | 'q' => return .quit (← exitStatus)
    | 'Q' => return .quitSilently (← exitStatus)
    | 'r' => return .readFile (← fileName)
    | 'w' => return .writeFile (← fileName)
    | 'W' => return .writeLine (← fileName)
    | 's' => substitution n
    | 'y' => letterMap
    | c => fail ("unknown command: \x60" ++ String.ofList [c] ++ "'")

/-- The commands, each with where its block ends, and the blocks that are open: the first command
has the number given. -/
def instructions (n : Regex.Notation) : Nat → Nat → Reading (List (Selection × Action))
  | 0, _ => return []
  | fuel + 1, depth => do
    skip fun c => Shell.isSpaceChar c || c = ';'
    match ← look with
    | none =>
      if depth > 0 then throw ⟨0, "unmatched \x60\x7b'"⟩ else return []
    | some '#' =>
      skip (· ≠ '\n')
      instructions n fuel depth
    | some _ =>
      let s ← selection n
      let a ← action n s.first.isSome
      match a with
      | .openBlock => return (s, a) :: (← instructions n fuel (depth + 1))
      | .closeBlock =>
        if depth = 0 then fail "unexpected \x60\x7d'"
        else return (s, a) :: (← instructions n fuel (depth - 1))
      | _ => return (s, a) :: (← instructions n fuel depth)

/-- The number of commands up to the end of the block that is open, with it. -/
def blockLength : Nat → List (Selection × Action) → Nat
  | _, [] => 0
  | depth, (_, a) :: rest =>
    match a, depth with
    | .closeBlock, 0 => 1
    | .closeBlock, d + 1 => 1 + blockLength d rest
    | .openBlock, d => 1 + blockLength (d + 1) rest
    | _, d => 1 + blockLength d rest

def withStops : Nat → List (Selection × Action) → List Instruction
  | _, [] => []
  | index, (s, a) :: rest =>
    let stop := match a with
      | .openBlock => index + 1 + blockLength 0 rest
      | _ => index + 1
    ⟨s, a, stop⟩ :: withStops (index + 1) rest

/-- The label that a command jumps to, if it has one. -/
def Action.jump? : Action → Option String
  | .branch name => some name
  | .branchIfChanged name => some name
  | .branchUnlessChanged name => some name
  | _ => none

/-- Reads a script. -/
def ofText (n : Regex.Notation) (text : String) : Except Fault (Array Instruction) := do
  let cs := text.toList
  let (items, _) ← (instructions n (cs.length + 1) 0).run ⟨cs, cs.length, 0⟩
  .ok (withStops 0 items).toArray

end CommandContract.Utility.EditScript
