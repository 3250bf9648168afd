import CommandContract.Utility.RecordScript
import CommandContract.Utility.RecordToken

set_option autoImplicit false

/-!
# Reading record scripts

A script is read from its tokens, operators by their precedence. A text beside a text is joined with
it; `in` and `>` are no operators where a loop or an output gives them another meaning.
-/
namespace CommandContract.Utility.RecordScript

/-- What is left of a script, and the line it ends on. -/
structure Rest where
  tokens : List (Token × Nat)
  lastLine : Nat

abbrev Reading := StateT Rest (Except String)

def peek? : Reading (Option Token) := return (← get).tokens.head?.map (·.1)

def advance : Reading Unit := modify fun r => { r with tokens := r.tokens.drop 1 }

/-- Refuses the next token. -/
def unexpected {α : Type} : Reading α := do
  let r ← get
  match r.tokens with
  | (t, line) :: _ => throw ("line " ++ toString line ++ ": syntax error at or near " ++ t.shown)
  | [] => throw ("line " ++ toString r.lastLine ++ ": syntax error at or near end of file")

/-- Takes a symbol if it comes next. -/
def takes (s : String) : Reading Bool := do
  if (← peek?) = some (.symbol s) then
    advance
    return true
  else return false

def expect (s : String) : Reading Unit := do
  if !(← takes s) then
    if s = "\x7d" && (← peek?).isNone then
      throw ("line " ++ toString ((← get).lastLine + 1) ++ ": missing \x7d near end of file")
    else unexpected

def takesKeyword (s : String) : Reading Bool := do
  if (← peek?) = some (.keyword s) then
    advance
    return true
  else return false

def skipLineEnds : Reading Unit :=
  modify fun r => { r with tokens := r.tokens.dropWhile (·.1 = .lineEnd) }

/-- Passes over line ends and semicolons. -/
def skipSeparators : Reading Unit :=
  modify fun r => { r with tokens := r.tokens.dropWhile fun t =>
    t.1 = .lineEnd || t.1 = .symbol ";" }

def Expression.isPlace : Expression → Bool
  | named _ => true
  | element _ _ => true
  | field _ => true
  | _ => false

def assignment? (s : String) : Option (Option Operation) :=
  match s with
  | "=" => some none
  | "+=" => some (some .add)
  | "-=" => some (some .subtract)
  | "*=" => some (some .multiply)
  | "/=" => some (some .divide)
  | "%=" => some (some .remainder)
  | "^=" => some (some .power)
  | _ => none

def relation? (s : String) : Option Relation :=
  match s with
  | "<" => some .less
  | "<=" => some .atMost
  | "==" => some .equal
  | "!=" => some .unequal
  | ">" => some .more
  | ">=" => some .atLeast
  | _ => none

def builtin? (s : String) : Option Builtin :=
  match s with
  | "length" => some .length
  | "substr" => some .part
  | "index" => some .index
  | "split" => some .split
  | "sub" => some .replaceOne
  | "gsub" => some .replaceAll
  | "match" => some .find
  | "sprintf" => some .format
  | "tolower" => some .lower
  | "toupper" => some .upper
  | "int" => some .whole
  | "sqrt" => some .squareRoot
  | "close" => some .close
  | "fflush" => some .flush
  | _ => none

/-- Whether a token can begin what is joined to a text before it. -/
def Token.beginsJoined : Token → Bool
  | number _ => true
  | text _ => true
  | name _ => true
  | called _ => true
  | symbol s => ["$", "(", "!", "++", "--"].contains s
  | keyword s => (builtin? s).isSome
  | _ => false

/-- Operators that have no meaning of their own at a place. -/
structure Limits where
  noIn : Bool
  noMore : Bool

def Limits.none : Limits := ⟨false, false⟩

/-- The levels of precedence, from the one that binds least. -/
inductive Level where
  | choice
  | either
  | both
  | membership
  | fits
  | relation
  | joined
  | sum
  | product
  | sign
  | power
  | step
  | place
  | primary
  deriving DecidableEq, Repr

/-- Reads an expression of a level; the one given reads those inside it. -/
abbrev Reader := Limits → Level → Reading Expression

/-- Operands with operators between them, the left ones first. Where `breaks` holds, lines may end
behind an operator. -/
def chain (breaks : Bool) (operand : Reading Expression)
    (operator : String → Option (Expression → Expression → Expression)) :
    Nat → Expression → Reading Expression
  | 0, e => return e
  | fuel + 1, e => do
    match ← peek? with
    | some (.symbol s) =>
      match operator s with
      | none => return e
      | some combine =>
        advance
        if breaks then skipLineEnds
        chain breaks operand operator fuel (combine e (← operand))
    | _ => return e

/-- Expressions with commas between them. -/
def readList (item : Reading Expression) : Nat → Reading (List Expression)
  | 0 => unexpected
  | fuel + 1 => do
    let e ← item
    if ← takes "," then
      skipLineEnds
      return e :: (← readList item fuel)
    else return [e]

/-- Expressions up to a closing bracket, perhaps none. -/
def readArguments (read : Reader) (close : String) : Reading (List Expression) := do
  skipLineEnds
  if ← takes close then return []
  else
    let items ← readList (read .none .choice) ((← get).tokens.length + 1)
    expect close
    return items

def regexOf (cs : List Char) : Reading Regex :=
  match Regex.ofText .extended (String.ofList cs) with
  | .ok (r, _) => return r
  | .error message => throw ("regular expression compile failed (" ++ message ++ ")\n" ++
      String.ofList cs)

def readPrimary (read : Reader) : Reading Expression := do
  match ← peek? with
  | some (.number x) =>
    advance
    return .number x
  | some (.text cs) =>
    advance
    return .text cs
  | some (.regex cs) =>
    advance
    return .regex (← regexOf cs)
  | some (.name s) =>
    advance
    if ← takes "[" then return .element s (← readArguments read "]")
    else return .named s
  | some (.called s) =>
    advance
    expect "("
    return .call s (← readArguments read ")")
  | some (.symbol "$") =>
    advance
    match ← peek? with
    | some (.symbol s) =>
      if s = "++" || s = "--" then return .field (← read .none .step)
      else if s = "-" || s = "+" || s = "!" then return .field (← read .none .sign)
      else return .field (← read .none .primary)
    | _ => return .field (← read .none .primary)
  | some (.symbol "(") =>
    advance
    match ← readArguments read ")" with
    | [] => unexpected
    | items => return .list items
  | some (.keyword "getline") =>
    advance
    let place ← match ← peek? with
      | some (.name _) => some <$> read .none .primary
      | some (.symbol "$") => some <$> read .none .primary
      | _ => pure none
    if ← takes "<" then return .next place (some (← read .none .place))
    else return .next place none
  | some (.keyword s) =>
    match builtin? s with
    | none => unexpected
    | some f =>
      advance
      if ← takes "(" then return .builtin f (← readArguments read ")")
      else if f = .length then return .builtin f []
      else unexpected
  | _ => unexpected

/-- A place may be changed behind its name. -/
def readPlace (read : Reader) (limits : Limits) : Reading Expression := do
  let e ← read limits .primary
  if !e.isPlace then return e
  else
    match ← peek? with
    | some (.symbol "++") =>
      advance
      return .step e .add true
    | some (.symbol "--") =>
      advance
      return .step e .subtract true
    | some (.symbol s) =>
      match assignment? s with
      | some op =>
        advance
        skipLineEnds
        return .assign e op (← read limits .choice)
      | none => return e
    | _ => return e

/-- Operands that stand beside each other. -/
def readJoined (operand : Reading Expression) : Nat → Expression → Reading Expression
  | 0, e => return e
  | fuel + 1, e => do
    if (← peek?).any Token.beginsJoined then readJoined operand fuel (.joined e (← operand))
    else return e

def readMembership : Nat → Expression → Reading Expression
  | 0, e => return e
  | fuel + 1, e => do
    if ← takesKeyword "in" then
      match ← peek? with
      | some (.name array) =>
        advance
        let index := match e with
          | .list items => items
          | e => [e]
        readMembership fuel (.has array index)
      | _ => unexpected
    else return e

/-- One level of the grammar. -/
def readLevel (read : Reader) : Reader := fun limits level => do
  let size := (← get).tokens.length
  let chained (breaks : Bool) (next : Level)
      (operator : String → Option (Expression → Expression → Expression)) : Reading Expression := do
    let first ← read limits next
    chain breaks (read limits next) operator size first
  match level with
  | .choice =>
    let test ← read limits .either
    if ← takes "?" then
      skipLineEnds
      let a ← read limits .choice
      skipLineEnds
      expect ":"
      skipLineEnds
      return .choice test a (← read limits .choice)
    else return test
  | .either => chained true .both fun s => if s = "||" then some .either else none
  | .both => chained true .membership fun s => if s = "&&" then some .both else none
  | .membership =>
    let e ← read limits .fits
    if limits.noIn then return e else readMembership size e
  | .fits =>
    chained false .relation fun s =>
      if s = "~" then some (.fits true) else if s = "!~" then some (.fits false) else none
  | .relation =>
    let a ← read limits .joined
    match ← peek? with
    | some (.symbol s) =>
      match relation? s with
      | some r =>
        if limits.noMore && r = .more then return a
        else
          advance
          return .relation r a (← read limits .joined)
      | none => return a
    | _ => return a
  | .joined =>
    let first ← read limits .sum
    readJoined (read limits .sum) size first
  | .sum =>
    chained false .product fun s =>
      if s = "+" then some (.operation .add)
      else if s = "-" then some (.operation .subtract)
      else none
  | .product =>
    chained false .sign fun s =>
      if s = "*" then some (.operation .multiply)
      else if s = "/" then some (.operation .divide)
      else if s = "%" then some (.operation .remainder)
      else none
  | .sign =>
    if ← takes "-" then return .negative (← read limits .sign)
    else if ← takes "+" then return .positive (← read limits .sign)
    else if ← takes "!" then return .not (← read limits .sign)
    else read limits .power
  | .power =>
    let base ← read limits .step
    if ← takes "^" then return .operation .power base (← read limits .sign)
    else return base
  | .step =>
    if ← takes "++" then return .step (← read limits .primary) .add false
    else if ← takes "--" then return .step (← read limits .primary) .subtract false
    else read limits .place
  | .place => readPlace read limits
  | .primary => readPrimary read

/-- Reads expressions that are nested down to a depth. -/
def readExpression : Nat → Reader
  | 0 => fun _ _ => unexpected
  | depth + 1 => readLevel (readExpression depth)

/-- Every level of precedence takes a step, so this is enough for all that tokens can nest. -/
def readWhole (limits : Limits) : Reading Expression := do
  readExpression (20 * ((← get).tokens.length + 1)) limits .choice

/-- Reads the words of an output, and where they go. -/
def readOutput : Reading (List Expression × Option Outlet) := do
  let size := (← get).tokens.length
  let limits : Limits := ⟨false, true⟩
  let ends : Option Token → Bool := fun t => match t with
    | none => true
    | some .lineEnd => true
    | some (.symbol s) => [";", "\x7d", ">", ">>", "|"].contains s
    | _ => false
  let args ← if ends (← peek?) then pure [] else readList (readWhole limits) (size + 1)
  let args := match args with
    | [.list items] => items
    | args => args
  let target (atEnd : Bool) : Reading (List Expression × Option Outlet) := do
    let path ← readExpression (20 * (size + 1)) limits .joined
    return (args, some ⟨atEnd, path⟩)
  if ← takes ">" then target false
  else if ← takes ">>" then target true
  else return (args, none)

/-- A statement that needs a separator behind it. -/
def readSimple : Reading Statement := do
  let value? : Reading (Option Expression) := do
    match ← peek? with
    | none => return none
    | some .lineEnd => return none
    | some (.symbol ";") => return none
    | some (.symbol "\x7d") => return none
    | _ => return some (← readWhole .none)
  match ← peek? with
  | some (.keyword "print") =>
    advance
    let (args, outlet) ← readOutput
    return .print args outlet
  | some (.keyword "printf") =>
    advance
    let (args, outlet) ← readOutput
    if args.isEmpty then unexpected else return .printFormatted args outlet
  | some (.keyword "delete") =>
    advance
    match ← peek? with
    | some (.name array) =>
      advance
      if ← takes "[" then
        let index ← readList (readWhole .none) ((← get).tokens.length + 1)
        expect "]"
        return .delete array (some index)
      else return .delete array none
    | _ => unexpected
  | some (.keyword "next") =>
    advance
    return .nextRecord
  | some (.keyword "exit") =>
    advance
    return .exit (← value?)
  | some (.keyword "return") =>
    advance
    return .answer (← value?)
  | some (.keyword "break") =>
    advance
    return .leaveLoop
  | some (.keyword "continue") =>
    advance
    return .nextRound
  | _ => return .expression (← readWhole .none)

/-- The end of a simple statement. -/
def endOfSimple : Reading Unit := do
  match ← peek? with
  | none => pure ()
  | some .lineEnd => advance
  | some (.symbol ";") => advance
  | some (.symbol "\x7d") => pure ()
  | _ => unexpected

/-- The name and the array of a loop over indices, if one begins here. -/
def keysLoop? : Reading (Option (String × String)) := do
  let items : List Token := (← get).tokens.map (·.1)
  match items with
  | .symbol "(" :: .name name :: .keyword "in" :: .name array :: .symbol ")" :: _ =>
    modify fun r => { r with tokens := r.tokens.drop 5 }
    return some (name, array)
  | _ => return none

def readTest : Reading Expression := do
  expect "("
  skipLineEnds
  let test ← readWhole .none
  skipLineEnds
  expect ")"
  return test

/-- The statements of a block up to its end; the reader given reads one. -/
def readItems (read : Reading Statement) : Nat → Reading (List Statement)
  | 0 => unexpected
  | fuel + 1 => do
    skipSeparators
    if (← peek?) = some (.symbol "\x7d") || (← peek?).isNone then
      expect "\x7d"
      return []
    else
      let first ← read
      return first :: (← readItems read fuel)

/-- A statement; the reader given reads those inside it. -/
def readStatementWith (read : Reading Statement) : Reading Statement := do
  let body : Reading Statement := do
    skipLineEnds
    if ← takes ";" then return .block [] else read
  match ← peek? with
  | some (.symbol "\x7b") =>
    advance
    return .block (← readItems read ((← get).tokens.length + 1))
  | some (.keyword "if") =>
    advance
    let test ← readTest
    let yes ← body
    let behind ← get
    skipSeparators
    if ← takesKeyword "else" then return .choose test yes (some (← body))
    else
      set behind
      return .choose test yes none
  | some (.keyword "while") =>
    advance
    let test ← readTest
    return .repeatWhile test (← body)
  | some (.keyword "do") =>
    advance
    let inner ← body
    skipSeparators
    if ← takesKeyword "while" then
      let test ← readTest
      endOfSimple
      return .repeatUntil inner test
    else unexpected
  | some (.keyword "for") =>
    advance
    match ← keysLoop? with
    | some (name, array) => return .forKeys name array (← body)
    | none =>
      expect "("
      let first : Statement ← if ← takes ";" then pure (.block []) else
        let s ← readSimple
        expect ";"
        pure s
      skipLineEnds
      let test ← if ← takes ";" then pure none else
        let e ← readWhole .none
        expect ";"
        pure (some e)
      skipLineEnds
      let next : Statement ← if ← takes ")" then pure (.block []) else
        let s ← readSimple
        expect ")"
        pure s
      return .block [first, .repeatCounting test next (← body)]
  | _ =>
    let s ← readSimple
    endOfSimple
    return s

def readStatement : Nat → Reading Statement
  | 0 => unexpected
  | depth + 1 => readStatementWith (readStatement depth)

def readAction : Reading Statement := do readStatement ((← get).tokens.length + 1)

def readNames : Nat → Reading (List String)
  | 0 => unexpected
  | fuel + 1 => do
    skipLineEnds
    match ← peek? with
    | some (.name s) =>
      advance
      skipLineEnds
      if ← takes "," then return s :: (← readNames fuel)
      else
        expect ")"
        return [s]
    | _ =>
      expect ")"
      return []

/-- The action of a rule, if there is one on the line. -/
def action? : Reading (Option Statement) := do
  if (← peek?) = some (.symbol "\x7b") then return some (← readAction) else return none

/-- Rules and functions up to the end of the script. -/
def readRules : Nat → RecordScript → Reading RecordScript
  | 0, s => return s
  | fuel + 1, s => do
    skipSeparators
    let add (pattern : Pattern) (action : Option Statement) : RecordScript :=
      { s with rules := s.rules ++ [⟨pattern, action⟩] }
    match ← peek? with
    | none => return s
    | some (.keyword "BEGIN") =>
      advance
      match ← action? with
      | some action => readRules fuel (add .first (some action))
      | none => unexpected
    | some (.keyword "END") =>
      advance
      match ← action? with
      | some action => readRules fuel (add .last (some action))
      | none => unexpected
    | some (.symbol "\x7b") =>
      let action ← readAction
      readRules fuel (add .always (some action))
    | some (.keyword word) =>
      if word = "function" || word = "func" then
        advance
        match ← peek? with
        | some t =>
          match t with
          | .called _ => pure ()
          | .name _ => pure ()
          | _ => unexpected
          advance
          expect "("
          let parameters ← readNames ((← get).tokens.length + 1)
          skipLineEnds
          match ← action? with
          | some body => readRules fuel { s with functions := s.functions ++ [(t.shown, ⟨parameters, body⟩)] }
          | none => unexpected
        | none => unexpected
      else
        let test ← readWhole .none
        readRules fuel (add (.when test) (← action?))
    | some _ =>
      let test ← readWhole .none
      if ← takes "," then
        skipLineEnds
        let stop ← readWhole .none
        readRules fuel (add (.between test stop) (← action?))
      else readRules fuel (add (.when test) (← action?))

/-- Reads a script, or says what is wrong with it. -/
def ofText (text : String) : Except String RecordScript := do
  let cs := text.toList
  let items ← tokens (cs.length + 1) 1 none cs
  let lastLine := cs.countP (· = '\n') + 1
  let (script, _) ← (readRules (items.length + 1) ⟨[], []⟩).run ⟨items, lastLine⟩
  return script

end CommandContract.Utility.RecordScript
