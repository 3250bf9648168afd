import CommandContract.Shell.Source

set_option autoImplicit false

/-!
# Reading scripts

A script is read one complete command at a time, so what stands before a fault in the grammar still
runs. Reading knows the line it is on. The text of a here-document begins behind the line end after
its mark; a command refers to it by a number.
-/
namespace CommandContract.Shell

open Reading

/-- Ends an unquoted word. -/
def isBreak (c : Char) : Bool :=
  [' ', '\t', '\n', '<', '>', '(', ')', ';', '&', '|'].contains c

def isSpecialParameter (c : Char) : Bool :=
  ['#', '?', '$', '!', '-', '*', '@'].contains c || c.isDigit

/-- Where a piece of a word stands. -/
inductive Context where
  | top
  | quotes
  /-- behind the operator of a parameter, with or without quotes around it -/
  | braces (quoted : Bool)
  /-- inside the parentheses of a calculation, with those that are open in it -/
  | calculation (depth : Nat)
  | document
  deriving DecidableEq, Repr

def Context.isQuoted : Context → Bool
  | .top => false
  | .quotes => true
  | .braces q => q
  | .calculation _ => true
  | .document => true

/-- The characters that a backslash takes their meaning from inside double quotes. -/
def isEscapable (ctx : Context) (c : Char) : Bool :=
  c = '$' || c = '\x60' || c = '\\' || (c = '"' && ctx ≠ .document) ||
    (c = '\x7d' && ctx = .braces true)

/-- Up to a quote, nothing in between having a meaning. -/
def upToSingleQuote : Reading (List Char) := do
  let s ← get
  let (body, rest) := s.rest.span (· ≠ '\'')
  match rest with
  | _ :: rest =>
    set { s with rest, line := s.line + body.count '\n' }
    return body
  | [] =>
    set { s with rest := [], line := s.line + body.count '\n' }
    refuse "Unterminated quoted string"

/-- The script of an old-style substitution, up to its closing mark, with one backslash taken off.
-/
def oldScript (inQuotes : Bool) : Nat → Reading (List Char)
  | 0 => refuse "EOF in backquote substitution"
  | fuel + 1 => do
    let s ← get
    match s.rest with
    | [] => refuse "EOF in backquote substitution"
    | '\\' :: '\n' :: cs =>
      set { s with rest := cs, line := s.line + 1 }
      oldScript inQuotes fuel
    | '\\' :: c :: cs =>
      set { s with rest := cs }
      let more ← oldScript inQuotes fuel
      if c = '\\' || c = '\x60' || c = '$' || (inQuotes && c = '"') then return c :: more
      else return '\\' :: c :: more
    | c :: cs =>
      set { s with rest := cs, line := if c = '\n' then s.line + 1 else s.line }
      if c = '\x60' then return [] else return c :: (← oldScript inQuotes fuel)

/-- Leaves what is no operator. A line end in its place does not count as a line. -/
def unknownOperator : Reading Operator := do
  if (← peek?) = some '\n' then modify fun s => { s with line := s.line - 1 }
  return .unknown

/-- The operator behind the name of a parameter in braces. -/
def readOperator : Reading Operator := do
  match ← peek? with
  | some ':' =>
    advance
    match ← peek? with
    | some '-' => advance; return .fallback true
    | some '+' => advance; return .replace true
    | some '?' => advance; return .demand true
    | some '=' => advance; return .assign true
    | _ => unknownOperator
  | some '-' => advance; return .fallback false
  | some '+' => advance; return .replace false
  | some '?' => advance; return .demand false
  | some '=' => advance; return .assign false
  | some '%' => advance; return .trimBack (← accept '%')
  | some '#' => advance; return .trimFront (← accept '#')
  | some '\x7d' => return .value
  | _ => unknownOperator

/-- The name of a parameter in braces, and its operator. -/
def readParameter : Reading (String × Operator) := do
  match ← peek? with
  | none => return ("", .unknown)
  | some c =>
    if isNameStart c then
      let name ← takeAll isNameChar
      return (String.ofList name, ← readOperator)
    else if c.isDigit then
      let name ← takeAll Char.isDigit
      return (String.ofList name, ← readOperator)
    else if c = '#' then
      advance
      match ← peek? with
      | some d =>
        if isNameStart d then
          let name ← takeAll isNameChar
          return (String.ofList name, if (← peek?) = some '\x7d' then .length else .unknown)
        else if d.isDigit then
          let name ← takeAll Char.isDigit
          return (String.ofList name, if (← peek?) = some '\x7d' then .length else .unknown)
        else if isSpecialParameter d then
          let before ← get
          advance
          if (← peek?) = some '\x7d' then return (String.ofList [d], .length)
          else
            set before
            return ("#", ← readOperator)
        else return ("#", ← readOperator)
      | none => return ("#", .unknown)
    else if isSpecialParameter c then
      advance
      return (String.ofList [c], ← readOperator)
    else return ("", .unknown)

/-- Passes over blanks and a comment. -/
def skipBlanks : Nat → Reading Unit
  | 0 => pure ()
  | fuel + 1 => do
    match ← peek? with
    | some ' ' => advance; skipBlanks fuel
    | some '\t' => advance; skipBlanks fuel
    | some '#' => modify fun s => { s with rest := s.rest.dropWhile (· ≠ '\n') }
    | _ => pure ()

/-- The lines of a here-document up to its mark, and what follows them. -/
def documentLines (mark : List Char) (stripTabs : Bool) : Nat → List Char →
    List Char × List Char × Nat
  | 0, cs => ([], cs, 0)
  | _ + 1, [] => ([], [], 0)
  | fuel + 1, cs =>
    let (line, rest) := cs.span (· ≠ '\n')
    let line := if stripTabs then line.dropWhile (· = '\t') else line
    if line = mark then ([], rest.drop 1, 1)
    else
      match rest with
      | [] => (line, [], 0)
      | _ :: rest =>
        let (body, rest, count) := documentLines mark stripTabs fuel rest
        (line ++ '\n' :: body, rest, count + 1)

/-! ## Tokens -/

def keywords : List String := [
  "!", "case", "do", "done", "elif", "else", "esac", "fi", "for", "if", "in", "then", "until",
  "while", "\x7b", "\x7d"]

/-- The keyword that a token is where keywords are looked for. -/
def keyword? : Token → Option String
  | .word w => (plainText? w).filter keywords.contains
  | _ => none

/-- The name of a token in messages. -/
def tokenName (seesKeywords : Bool) (t : Token) : String :=
  match t with
  | .endOfText => "end of file"
  | .lineEnd => "newline"
  | .semicolon => "\";\""
  | .ampersand => "\"&\""
  | .andIf => "\"&&\""
  | .orIf => "\"||\""
  | .bar => "\"|\""
  | .openParen => "\"(\""
  | .closeParen => "\")\""
  | .endOfArm => "\";;\""
  | .arrow _ _ => "redirection"
  | .word w =>
    match if seesKeywords then keyword? (.word w) else none with
    | some name => "\"" ++ name ++ "\""
    | none => "word"

/-- Reports a token that does not fit. -/
def unexpected {α : Type} (seesKeywords : Bool) (t : Token) : Reading α :=
  refuse (tokenName seesKeywords t ++ " unexpected")

/-- Reports a token where another one has to stand. -/
def expected {α : Type} (seesKeywords : Bool) (t : Token) (what : String) : Reading α :=
  refuse (tokenName seesKeywords t ++ " unexpected (expecting " ++ what ++ ")")

def Token.isEndOfText : Token → Bool
  | .endOfText => true
  | _ => false

/-- A token that ends a list of commands. -/
def endsList (t : Token) : Bool :=
  match t with
  | .endOfText => true
  | .closeParen => true
  | .endOfArm => true
  | t =>
    match keyword? t with
    | some k => ["do", "done", "elif", "else", "esac", "fi", "then", "\x7d"].contains k
    | none => false

/-- Gives a token back. -/
def push (t : Token) : Reading Unit := modify fun s => { s with pushed := some t }

/-- The sign of a redirection behind a word, which may be the number of a stream. -/
def readArrow (w : Word) : Reading Token := do
  match plainText? w with
  | some name =>
    match name.toList with
    | [] => arrowFrom none
    | [d] => if d.isDigit then arrowFrom (some (d.toNat - 48)) else return .word w
    | _ => return .word w
  | none => return .word w
where
  arrowFrom (stream : Option Nat) : Reading Token := do
    if ← accept '<' then
      let stream := stream.getD 0
      if ← accept '<' then return .arrow stream (.document (← accept '-'))
      else if ← accept '&' then return .arrow stream .same
      else if ← accept '>' then return .arrow stream (.opening .readWrite)
      else return .arrow stream (.opening .read)
    else
      let stream := stream.getD 1
      advance
      if ← accept '>' then return .arrow stream (.opening .append)
      else if ← accept '|' then return .arrow stream (.opening .overwrite)
      else if ← accept '&' then return .arrow stream .same
      else return .arrow stream (.opening .write)

/-- The built-in commands whose faults end a script, and whose names no function may have. -/
def specialNames : List String := [
  ".", ":", "break", "continue", "eval", "exec", "exit", "export", "local", "readonly", "return",
  "set", "shift", "times", "trap", "unset"]

/-- The alias that a token is, unless it was put in already. -/
def alias? (aliases : Members String) (used : List String) (t : Token) : Option (String × String) :=
  match t with
  | .word [.text cs false] =>
    let name := String.ofList cs
    if used.contains name then none else (Members.get? name aliases).map fun value => (name, value)
  | _ => none

/-- The mark of a here-document, and whether some of it is quoted. -/
def markOf (w : Word) : String × Bool :=
  let texts := w.map fun p =>
    match p with
    | .text cs q => (cs, q)
    | .parameter name _ _ q => ('$' :: name.toList, q)
    | _ => ([], false)
  (String.ofList (texts.flatMap (·.1)), texts.any (·.2))

/-- A word that sets a variable. -/
def assignment? : Word → Option (String × Word)
  | .text cs false :: parts =>
    match Text.cutAt? '=' cs with
    | some (name, after) =>
      if isName (String.ofList name) then
        some (String.ofList name, if after.isEmpty then parts else .text after false :: parts)
      else none
    | none => none
  | _ => none

/-- Puts redirections around a command. -/
def withRedirections (line : Nat) (body : Command) (redirections : List Redirection) :
    Reading Command :=
  return if redirections.isEmpty then body else .redirected line body redirections

/-- Two commands after each other. -/
def Command.followedBy (c : Command) : Command → Command
  | .sequence cs => .sequence (c :: cs)
  | d => .sequence [c, d]

mutual

/-- The parts of a word in a context, up to where it ends; quotes and braces are taken with it. -/
def readParts : Nat → Context → Reading Word
  | 0, _ => refuse "Unterminated quoted string"
  | fuel + 1, ctx => do
    match ← peek? with
    | none =>
      match ctx with
      | .top => return []
      | .document => return []
      | .quotes => refuse "Unterminated quoted string"
      | .braces true => refuse "Unterminated quoted string"
      | .braces false => refuse "Missing '\x7d'"
      | .calculation _ => refuse "Missing '))'"
    | some c =>
      if c = '\\' then
        advance
        match (← get).rest with
        | [] => return addChar '\\' true (← readParts fuel ctx)
        | d :: _ =>
          advance
          let more ← readParts fuel ctx
          if ctx.isQuoted && !isEscapable ctx d then
            return addChar '\\' true (addChar d true more)
          else return addChar d true more
      else if c = '\'' ∧ !ctx.isQuoted then
        advance
        let body ← upToSingleQuote
        let more ← readParts fuel ctx
        return .text [] true :: body.foldr (fun c ps => addChar c true ps) more
      else if c = '"' ∧ ctx ≠ .document then
        advance
        match ctx with
        | .quotes => return []
        | .calculation _ => readParts fuel ctx
        | _ =>
          let inner ← readParts fuel .quotes
          let more ← readParts fuel ctx
          return (if inner.isEmpty then [.text [] true] else inner) ++ more
      else if c = '\x60' then
        advance
        let script ← oldScript ctx.isQuoted (← get).rest.length.succ
        let body ← readOld fuel script
        return .output body ctx.isQuoted :: (← readParts fuel ctx)
      else if c = '$' then
        advance
        let part ← readDollar fuel ctx.isQuoted
        return part (← readParts fuel ctx)
      else
        match ctx with
        | .top =>
          if isBreak c then return []
          else
            advance
            return addChar c false (← readParts fuel ctx)
        | .braces q =>
          advance
          if c = '\x7d' then return [] else return addChar c q (← readParts fuel ctx)
        | .calculation depth =>
          advance
          if c = '(' then return addChar c true (← readParts fuel (.calculation (depth + 1)))
          else if c = ')' then
            match depth with
            | depth + 1 => return addChar c true (← readParts fuel (.calculation depth))
            | 0 =>
              if ← accept ')' then return []
              else return addChar c true (← readParts fuel ctx)
          else return addChar c true (← readParts fuel ctx)
        | ctx =>
          advance
          return addChar c true (← readParts fuel ctx)

/-- What stands behind a dollar sign, to be put in front of other parts. -/
def readDollar : Nat → Bool → Reading (Word → Word)
  | 0, _ => refuse "Unterminated quoted string"
  | fuel + 1, quoted => do
    match ← peek? with
    | some '(' =>
      advance
      if ← accept '(' then
        let inner ← readParts fuel (.calculation 0)
        return fun ps => .arithmetic inner quoted :: ps
      else
        let before := (← get).pending
        modify fun s => { s with pending := [] }
        let body ← readList fuel true
        match ← readToken fuel with
        | .closeParen =>
          modify fun s => { s with pending := before }
          return fun ps => .output body quoted :: ps
        | t => expected true t "\")\""
    | some '\x7b' =>
      advance
      let (name, operator) ← readParameter
      match operator with
      | .value =>
        advance
        return fun ps => .parameter name .value [] quoted :: ps
      | operator =>
        let trims := match operator with
          | .trimFront _ => true
          | .trimBack _ => true
          | _ => false
        let word ← readParts fuel (.braces (quoted && !trims))
        return fun ps => .parameter name operator word quoted :: ps
    | some c =>
      if isNameStart c then
        let name ← takeAll isNameChar
        return fun ps => .parameter (String.ofList name) .value [] quoted :: ps
      else if isSpecialParameter c then
        advance
        return fun ps => .parameter (String.ofList [c]) .value [] quoted :: ps
      else return addChar '$' quoted
    | none => return addChar '$' quoted

/-- The commands of an old-style substitution. -/
def readOld : Nat → List Char → Reading Command
  | 0, _ => refuse "EOF in backquote substitution"
  | fuel + 1, script => do
    let outer ← get
    set { outer with rest := script, line := 1, pushed := none, pending := [] }
    let body ← readList fuel true
    match ← readToken fuel with
    | .endOfText =>
      modify fun s => { outer with documents := s.documents, numbered := s.numbered }
      return body
    | t => unexpected true t

/-- The next token. Behind a line end, the texts of here-documents are taken. -/
def readToken : Nat → Reading Token
  | 0 => return .endOfText
  | fuel + 1 => do
    match (← get).pushed with
    | some t =>
      modify fun s => { s with pushed := none }
      return t
    | none =>
      skipBlanks (← get).rest.length.succ
      match ← peek? with
      | none =>
        readDocuments fuel
        return .endOfText
      | some '\n' =>
        advance
        readDocuments fuel
        return .lineEnd
      | some '&' =>
        advance
        if ← accept '&' then return .andIf else return .ampersand
      | some '|' =>
        advance
        if ← accept '|' then return .orIf else return .bar
      | some ';' =>
        advance
        if ← accept ';' then return .endOfArm else return .semicolon
      | some '(' => advance; return .openParen
      | some ')' => advance; return .closeParen
      | _ =>
        let w ← readParts fuel .top
        match ← peek? with
        | some '<' => readArrow w
        | some '>' => readArrow w
        | _ => return .word w

/-- The texts of the here-documents whose marks were read. -/
def readDocuments : Nat → Reading Unit
  | 0 => pure ()
  | fuel + 1 => do
    let s ← get
    match s.pending with
    | [] => pure ()
    | d :: more =>
      let (body, rest, count) := documentLines d.mark.toList d.stripTabs s.rest.length.succ s.rest
      set { s with pending := more, rest }
      if d.verbatim then
        modify fun s => { s with documents := (d.number, [.text body true]) :: s.documents }
      else
        modify fun s => { s with rest := body }
        let w ← readParts fuel .document
        modify fun s => { s with documents := (d.number, w) :: s.documents }
      modify fun t => { t with rest, line := s.line + count }
      readDocuments fuel

/-- The commands up to a token that ends them, which is left. Without `mayBeEmpty` there has to be
one. -/
def readList : Nat → Bool → Reading Command
  | 0, _ => refuse "end of file unexpected"
  | fuel + 1, mayBeEmpty => do
    let t ← readPastLines fuel
    push t
    if t.isEndOfText || (mayBeEmpty && endsList t) then return .nothing
    else
      let c ← readAndOr fuel
      match ← readToken fuel with
      | .ampersand => return (Command.background c).followedBy (← readList fuel true)
      | .semicolon => return c.followedBy (← readList fuel true)
      | .lineEnd => return c.followedBy (← readList fuel true)
      | t =>
        push t
        return c.followedBy .nothing

/-- The next token that is no line end. -/
def readPastLines : Nat → Reading Token
  | 0 => return .endOfText
  | fuel + 1 => do
    match ← readToken fuel with
    | .lineEnd => readPastLines fuel
    | t => return t

def readAndOr : Nat → Reading Command
  | 0 => refuse "end of file unexpected"
  | fuel + 1 => do
    let first ← readPipeline fuel
    readMoreAndOr fuel first

def readMoreAndOr : Nat → Command → Reading Command
  | 0, _ => refuse "end of file unexpected"
  | fuel + 1, before => do
    match ← readToken fuel with
    | .andIf =>
      push (← readPastLines fuel)
      readMoreAndOr fuel (.conjunction before (← readPipeline fuel))
    | .orIf =>
      push (← readPastLines fuel)
      readMoreAndOr fuel (.disjunction before (← readPipeline fuel))
    | t =>
      push t
      return before

def readPipeline : Nat → Reading Command
  | 0 => refuse "end of file unexpected"
  | fuel + 1 => do
    let t ← readToken fuel
    if keyword? t = some "!" then return .negation (← readStages fuel)
    else
      push t
      readStages fuel

def readStages : Nat → Reading Command
  | 0 => refuse "end of file unexpected"
  | fuel + 1 => do
    match ← readMoreStages fuel with
    | [c] => return c
    | cs => return .pipeline cs

def readMoreStages : Nat → Reading (List Command)
  | 0 => refuse "end of file unexpected"
  | fuel + 1 => do
    let c ← readCommand fuel
    match ← readToken fuel with
    | .bar =>
      push (← readPastLines fuel)
      return c :: (← readMoreStages fuel)
    | t =>
      push t
      return [c]

/-- Takes a keyword that has to come. -/
def readKeyword : Nat → String → Reading Unit
  | 0, _ => pure ()
  | fuel + 1, name => do
    let t ← readToken fuel
    if keyword? t = some name then pure () else expected true t ("\"" ++ name ++ "\"")

/-- The first token of a command, with the texts of aliases put in for their names. -/
def readFirst : Nat → List String → Reading Token
  | 0, _ => return .endOfText
  | fuel + 1, used => do
    let t ← readToken fuel
    match alias? (← get).aliases used t with
    | some (name, value) =>
      modify fun s => { s with rest := value.toList ++ s.rest }
      readFirst fuel (name :: used)
    | none => return t

/-- One command, which a keyword or a parenthesis may begin. -/
def readCommand : Nat → Reading Command
  | 0 => refuse "end of file unexpected"
  | fuel + 1 => do
    let t ← readFirst fuel []
    let line := (← get).line
    match t with
    | .openParen =>
      let body ← readList fuel false
      match ← readToken fuel with
      | .closeParen =>
        let redirections ← readRedirections fuel
        return .subshell line body redirections
      | t => expected true t "\")\""
    | .arrow stream a =>
      push (.arrow stream a)
      readSimple fuel
    | .word w =>
      match keyword? (.word w) with
      | none =>
        push (.word w)
        readSimple fuel
      | some "\x7b" =>
        let body ← readList fuel false
        readKeyword fuel "\x7d"
        withRedirections line body (← readRedirections fuel)
      | some "if" =>
        let body ← readBranch fuel
        withRedirections line body (← readRedirections fuel)
      | some "while" =>
        let body ← readLoop fuel false
        withRedirections line body (← readRedirections fuel)
      | some "until" =>
        let body ← readLoop fuel true
        withRedirections line body (← readRedirections fuel)
      | some "for" =>
        let body ← readEach fuel line
        withRedirections line body (← readRedirections fuel)
      | some "case" =>
        let body ← readChoice fuel line
        withRedirections line body (← readRedirections fuel)
      | some _ => unexpected true (.word w)
    | t => unexpected true t

/-- What stands behind `if` or `elif`, up to and with `fi`. -/
def readBranch : Nat → Reading Command
  | 0 => refuse "end of file unexpected"
  | fuel + 1 => do
    let test ← readList fuel false
    readKeyword fuel "then"
    let body ← readList fuel false
    let t ← readToken fuel
    match keyword? t with
    | some "elif" => return .branch test body (← readBranch fuel)
    | some "else" =>
      let other ← readList fuel false
      readKeyword fuel "fi"
      return .branch test body other
    | some "fi" => return .branch test body .nothing
    | _ => expected true t "\"fi\""

def readLoop : Nat → Bool → Reading Command
  | 0, _ => refuse "end of file unexpected"
  | fuel + 1, untilTrue => do
    let test ← readList fuel false
    readKeyword fuel "do"
    let body ← readList fuel false
    readKeyword fuel "done"
    return .loop untilTrue test body

def readEach : Nat → Nat → Reading Command
  | 0, _ => refuse "end of file unexpected"
  | fuel + 1, line => do
    let name ←
      match ← readToken fuel with
      | .word w =>
        match plainText? w with
        | some name => if isName name then pure name else refuse "Bad for loop variable"
        | none => refuse "Bad for loop variable"
      | _ => refuse "Bad for loop variable"
    let t ← readPastLines fuel
    let words ←
      if keyword? t = some "in" then
        let words ← readWords fuel
        match ← readToken fuel with
        | .lineEnd => pure words
        | .semicolon => pure words
        | t => unexpected false t
      else
        match t with
        | .semicolon => pure [[.parameter "@" .value [] true]]
        | t =>
          push t
          pure [[.parameter "@" .value [] true]]
    push (← readPastLines fuel)
    readKeyword fuel "do"
    let body ← readList fuel false
    readKeyword fuel "done"
    return .each line name words body

/-- The words that come next. -/
def readWords : Nat → Reading (List Word)
  | 0 => return []
  | fuel + 1 => do
    match ← readToken fuel with
    | .word w => return w :: (← readWords fuel)
    | t =>
      push t
      return []

def readChoice : Nat → Nat → Reading Command
  | 0, _ => refuse "end of file unexpected"
  | fuel + 1, line => do
    match ← readToken fuel with
    | .word w =>
      let t ← readPastLines fuel
      if keyword? t = some "in" then return .choice line w (← readArms fuel)
      else expected true t "\"in\""
    | t => expected true t "word"

def readArms : Nat → Reading (List (List Word × Command))
  | 0 => refuse "end of file unexpected"
  | fuel + 1 => do
    let t ← readPastLines fuel
    if keyword? t = some "esac" then return []
    else
      let first ← match t with
        | .openParen => readToken fuel
        | t => pure t
      let patterns ← readPatterns fuel first
      let body ← readList fuel true
      let t ← readPastLines fuel
      if keyword? t = some "esac" then return [(patterns, body)]
      else
        match t with
        | .endOfArm => return (patterns, body) :: (← readArms fuel)
        | t => expected true t "\";;\""

/-- The patterns of an arm, up to and with the parenthesis. What is no word stands for an empty one.
-/
def readPatterns : Nat → Token → Reading (List Word)
  | 0, _ => refuse "end of file unexpected"
  | fuel + 1, t => do
    let w : Word := match t with
      | .word w => w
      | _ => []
    match ← readToken fuel with
    | .bar => return w :: (← readPatterns fuel (← readToken fuel))
    | .closeParen => return [w]
    | t => expected false t "\")\""

/-- The redirections that come next. -/
def readRedirections : Nat → Reading (List Redirection)
  | 0 => return []
  | fuel + 1 => do
    match ← readToken fuel with
    | .arrow stream a =>
      let r ← readTarget fuel stream a
      return r :: (← readRedirections fuel)
    | t =>
      push t
      return []

/-- What stands behind the sign of a redirection. -/
def readTarget : Nat → Nat → Arrow → Reading Redirection
  | 0, _, _ => refuse "end of file unexpected"
  | fuel + 1, stream, a => do
    match ← readToken fuel with
    | .word w =>
      match a with
      | .opening o => return .file stream o w
      | .same => return .same stream w
      | .document stripTabs =>
        let s ← get
        let (mark, quoted) := markOf w
        let d : Pending := ⟨s.numbered, mark, stripTabs, quoted⟩
        set { s with pending := s.pending ++ [d], numbered := s.numbered + 1 }
        return .document stream d.number
    | t => unexpected false t

/-- A simple command, or the definition of a function. -/
def readSimple : Nat → Reading Command
  | 0 => refuse "end of file unexpected"
  | fuel + 1 => do
    let line := (← get).line
    let c ← readSimpleFrom fuel line [] [] []
    match c with
    | .simple _ [] [w] [] =>
      match ← readToken fuel with
      | .openParen =>
        match ← readToken fuel with
        | .closeParen =>
          match plainText? w with
          | some name =>
            if isName name && !specialNames.contains name then
              push (← readPastLines fuel)
              return .define name (← readCommand fuel)
            else refuse "Bad function name"
          | none => refuse "Bad function name"
        | t => expected false t "\")\""
      | t =>
        push t
        return c
    | c => return c

/-- What comes next of a simple command. Assignments stand before the first other word. -/
def readSimpleFrom : Nat → Nat → List (String × Word) → List Word → List Redirection →
    Reading Command
  | 0, _, _, _, _ => refuse "end of file unexpected"
  | fuel + 1, line, assignments, words, redirections => do
    match ← readToken fuel with
    | .word w =>
      match if words.isEmpty then assignment? w else none with
      | some a => readSimpleFrom fuel line (assignments ++ [a]) words redirections
      | none => readSimpleFrom fuel line assignments (words ++ [w]) redirections
    | .arrow stream a =>
      let r ← readTarget fuel stream a
      readSimpleFrom fuel line assignments words (redirections ++ [r])
    | t =>
      push t
      return .simple line assignments words redirections

end

/-- The next complete command of a script: nothing at its end, and the empty command for a line
without any. -/
def readLine (fuel : Nat) : Reading (Option Command) := do
  match ← readToken fuel with
  | .endOfText => return none
  | .lineEnd => return some .nothing
  | t =>
    push t
    return some (← readLineFrom fuel fuel)
where
  /-- The commands up to the end of the line. -/
  readLineFrom (fuel : Nat) : Nat → Reading Command
    | 0 => refuse "end of file unexpected"
    | count + 1 => do
      let c ← readAndOr fuel
      let next ← readToken fuel
      let c := match next with
        | .ampersand => .background c
        | _ => c
      match next with
      | .endOfText =>
        push .endOfText
        return c.followedBy .nothing
      | .lineEnd => return c.followedBy .nothing
      | .ampersand => more c count
      | .semicolon => more c count
      | t => unexpected true t
  more (c : Command) (count : Nat) : Reading Command := do
    match ← readToken fuel with
    | .endOfText =>
      push .endOfText
      return c.followedBy .nothing
    | .lineEnd => return c.followedBy .nothing
    | t =>
      push t
      return c.followedBy (← readLineFrom fuel count)

/-- Enough steps for a script in which every character may be an alias. -/
def Source.steps (s : Source) : Nat :=
  let longest := (s.aliases.map fun a => a.2.length).foldl (· + ·) 1
  16 * s.rest.length * longest + 64

def Source.ofScript (script : String) (line : Nat) : Source :=
  { rest := script.toList, line, pushed := none, pending := [], documents := [], numbered := 0,
    aliases := [] }

end CommandContract.Shell
