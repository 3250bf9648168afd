import CommandContract.Shell.Condition
import CommandContract.Shell.Expansion
import CommandContract.Shell.Format
import CommandContract.Shell.Signal

set_option autoImplicit false

/-!
# Built-in commands

Commands that a shell runs itself and that run no other command. Each gets its arguments and leaves
a status.
-/
namespace CommandContract.Shell

/-- Writes to the output; one that refuses is reported. -/
def writeOutput (speaker text : String) : Run Unit := do
  match ← tryWrite 1 text with
  | .ok () => setStatus 0
  | .error _ =>
    complain (speaker ++ ": I/O error")
    setStatus 1

def needName (name : String) : Run Unit := do
  if isName name then pure () else fault (name ++ ": bad variable name") 2

/-- A number that is not negative, or a fault. -/
def needNumber (text : String) : Run Nat := do
  if text ≠ "" && text.toList.all Char.isDigit then
    let n := text.toNat?.getD 0
    if n < pow2 31 then return n else fault ("Illegal number: " ++ text) 2
  else fault ("Illegal number: " ++ text) 2

/-- The options of one cluster of letters, with values for those that take one. -/
def clusterOptions (plain valued : List Char) : List Char → List String →
    Run (List (Char × String) × List String)
  | [], rest => return ([], rest)
  | c :: cs, rest => do
    if plain.contains c then
      let (more, rest) ← clusterOptions plain valued cs rest
      return ((c, "") :: more, rest)
    else if valued.contains c then
      match cs, rest with
      | [], value :: rest => return ([(c, value)], rest)
      | [], [] => fault ("No arg for -" ++ String.ofList [c] ++ " option") 2
      | cs, rest => return ([(c, String.ofList cs)], rest)
    else fault ("Illegal option -" ++ String.ofList [c]) 2

/-- The options of a built-in command, and what follows them. -/
def takeOptions (plain valued : List Char) : Nat → List String →
    Run (List (Char × String) × List String)
  | 0, args => return ([], args)
  | _ + 1, [] => return ([], [])
  | fuel + 1, a :: rest => do
    match a.toList with
    | ['-', '-'] => return ([], rest)
    | '-' :: c :: cs =>
      let (found, rest) ← clusterOptions plain valued (c :: cs) rest
      let (more, rest) ← takeOptions plain valued fuel rest
      return (found ++ more, rest)
    | _ => return ([], a :: rest)

/-- The last of some options that was given. -/
def lastOption? (options : List (Char × String)) : Option Char := (options.getLast?).map (·.1)

/-- A text in quotes, as it could be read again. -/
def quoteText (s : String) : String :=
  let pieces := (Text.splitOn '\'' s.toList).map fun cs => "'" ++ String.ofList cs ++ "'"
  Text.joinWith "\"'\"" pieces

/-- Variables in the order of their names. -/
def sortedVariables : Run (List (String × Variable)) := do
  return (← env).bindings.mergeSort fun a b => a.1 ≤ b.1

/-! ## Text -/

def runPrintf (args : List String) : Run Unit := do
  let (_, args) ← takeOptions [] [] (args.length + 1) args
  match args with
  | [] => fault "usage: printf format [arg ...]" 2
  | template :: rest =>
    match format template.toList (rest.length + 1) ⟨[], rest, [], false⟩ with
    | .ok f =>
      for w in f.warnings do complain w
      writeOutput "printf" (String.ofList f.chars)
      if !f.warnings.isEmpty then setStatus 1
    | .error (f, message) =>
      for w in f.warnings do complain w
      write 1 (String.ofList f.chars)
      fault message 2

def runTest (args : List String) : Run Unit := do
  match Condition.test (← files) args with
  | .ok true => setStatus 0
  | .ok false => setStatus 1
  | .error message => fault message 2

def runBracket (args : List String) : Run Unit := do
  if args.getLast? = some "]" then runTest args.dropLast else fault "missing ]" 2

/-! ## Reading -/

/-- A line up to its end, with the characters that a backslash protects, how much was read, and
whether the end was there. -/
def readRaw (raw : Bool) : List Char → Nat → Glyphs × Nat × Bool
  | [], n => ([], n, false)
  | '\\' :: '\n' :: cs, n =>
    if raw then ([⟨'\\', true⟩], n + 2, true) else readRaw raw cs (n + 2)
  | '\\' :: c :: cs, n =>
    if raw then
      let (more, total, ended) := readRaw raw (c :: cs) (n + 1)
      (⟨'\\', true⟩ :: more, total, ended)
    else
      let (more, total, ended) := readRaw raw cs (n + 2)
      (⟨c, true⟩ :: more, total, ended)
  | c :: cs, n =>
    if c = '\n' then ([], n + 1, true)
    else
      let (more, total, ended) := readRaw raw cs (n + 1)
      (⟨c, false⟩ :: more, total, ended)

def isSeparator (separators : List Char) (g : Glyph) : Bool := !g.quoted && separators.contains g.char

def isBlankSeparator (separators : List Char) (g : Glyph) : Bool :=
  isSeparator separators g && (g.char = ' ' || g.char = '\t' || g.char = '\n')

/-- What follows the separator behind a field. -/
def skipSeparator (separators : List Char) (gs : Glyphs) : Glyphs :=
  let rest := gs.dropWhile (isBlankSeparator separators)
  match rest with
  | g :: more =>
    if isSeparator separators g then more.dropWhile (isBlankSeparator separators) else rest
  | [] => []

/-- The texts for names: a field for each, and all that is left for the last one. -/
def shareFields (separators : List Char) : Nat → Glyphs → List String
  | 0, _ => []
  | 1, gs =>
    let trimmed := (gs.reverse.dropWhile (isBlankSeparator separators)).reverse
    let (field, rest) := trimmed.span fun g => !isSeparator separators g
    if (skipSeparator separators rest).isEmpty then [Glyphs.text field] else [Glyphs.text trimmed]
  | n + 1, gs =>
    let (field, rest) := gs.span fun g => !isSeparator separators g
    Glyphs.text field :: shareFields separators n (skipSeparator separators rest)

def runRead (args : List String) : Run Unit := do
  let (options, names) ← takeOptions ['r'] ['p'] (args.length + 1) args
  let raw := options.any (·.1 = 'r')
  if names.isEmpty then fault "arg count" 2
  else
    for name in names do needName name
    let text := match ← waitingInput 0 with
      | .ok text => text
      | .error _ => ""
    let (line, total, ended) := readRaw raw text.toList 0
    takeInput 0 total
    let separators ← separators
    let fields := shareFields separators names.length (line.dropWhile (isBlankSeparator separators))
    for (name, field) in names.zip fields do assign name field
    setStatus (if ended then 0 else 1)

/-! ## Variables -/

/-- Sets marks on variables, or shows those that have them. -/
def markVariables (word : String) (mark : Variable → Variable) (isMarked : Variable → Bool)
    (args : List String) : Run Unit := do
  let (options, args) ← takeOptions ['p'] [] (args.length + 1) args
  if !options.isEmpty || args.isEmpty then
    let shown := ((← sortedVariables).filter fun v => isMarked v.2).map fun (name, v) =>
      word ++ " " ++ name ++ (match v.value with
        | some text => "=" ++ quoteText text
        | none => "")
    writeOutput word (unlines shown)
  else
    for a in args do
      let (name, value) := match Text.cutAt? '=' a.toList with
        | some (name, value) => (String.ofList name, some (String.ofList value))
        | none => (a, none)
      needName name
      match value with
      | some text => assign name text
      | none => pure ()
      let v := (← binding? name).getD ⟨none, false, false⟩
      setVariable name (mark v)
    setStatus 0

def runUnset (args : List String) : Run Unit := do
  let (options, args) ← takeOptions ['f', 'v'] [] (args.length + 1) args
  for name in args do
    if lastOption? options = some 'f' then
      changeEnv fun e => { e with functions := Members.erase name e.functions }
    else
      needName name
      match ← binding? name with
      | some v =>
        if v.constant then fault (name ++ ": is read only") 2
        else changeEnv fun e => { e with bindings := Members.erase name e.bindings }
      | none => pure ()
  setStatus 0

/-- Makes variables of the call that runs; what they hide comes back at its end. -/
def runLocal (args : List String) : Run Unit := do
  match (← env).hidden with
  | [] => fault "not in a function" 2
  | hidden :: outer =>
    let mut hidden := hidden
    for a in args do
      let (name, value) := match Text.cutAt? '=' a.toList with
        | some (name, value) => (String.ofList name, some (String.ofList value))
        | none => (a, none)
      needName name
      let before ← binding? name
      if !hidden.any (·.1 = name) then
        hidden := (name, before) :: hidden
        changeEnv fun e => { e with hidden := hidden :: outer }
      match value with
      | some text => assign name text
      | none => if before.isNone then setVariable name ⟨none, false, false⟩
    setStatus 0

def runShift (args : List String) : Run Unit := do
  let n ← match args with
    | text :: _ => needNumber text
    | [] => pure 1
  let e ← env
  if n > e.args.length then fault "can't shift that many" 2
  else
    changeEnv fun e => { e with args := e.args.drop n }
    setStatus 0

/-! ## Options -/

def optionNames : List (String × Char) := [
  ("errexit", 'e'), ("noglob", 'f'), ("ignoreeof", 'I'), ("interactive", 'i'), ("monitor", 'm'),
  ("noexec", 'n'), ("stdin", 's'), ("xtrace", 'x'), ("verbose", 'v'), ("vi", 'V'), ("emacs", 'E'),
  ("noclobber", 'C'), ("allexport", 'a'), ("notify", 'b'), ("nounset", 'u'), ("privileged", 'p'),
  ("nolog", '0'), ("debug", '1')]

def setOption (on : Bool) (letter : Char) : Run Unit :=
  changeEnv fun e =>
    let others := e.options.filter (· ≠ letter)
    { e with options := if on then letter :: others else others }

/-- Sets the options of one cluster of letters; what is left are the arguments behind it. -/
def setLetters (on : Bool) : List Char → List String → Run (List String)
  | [], rest => return rest
  | 'o' :: cs, rest => do
    match rest with
    | name :: rest =>
      match optionNames.find? (·.1 = name) with
      | some (_, letter) =>
        setOption on letter
        setLetters on cs rest
      | none => fault ("Illegal option " ++ (if on then "-o " else "+o ") ++ name) 2
    | [] =>
      let e ← env
      let shown := optionNames.map fun (name, letter) =>
        let isSet := e.options.contains letter
        if on then Text.padRight 16 name ++ (if isSet then "on" else "off")
        else "set " ++ (if isSet then "-o " else "+o ") ++ name
      write 1 (unlines (if on then "Current option settings" :: shown else shown))
      return []
  | c :: cs, rest => do
    if optionNames.any (·.2 = c) && c.isAlpha then
      setOption on c
      setLetters on cs rest
    else fault ("Illegal option " ++ (if on then "-" else "+") ++ String.ofList [c]) 2

/-- Sets options; what is left, and whether arguments were given with it. -/
def setOptions : Nat → List String → Run (List String × Bool)
  | 0, args => return (args, false)
  | _ + 1, [] => return ([], false)
  | fuel + 1, a :: rest => do
    match a.toList with
    | ['-', '-'] => return (rest, true)
    | ['-'] =>
      setOption false 'x'
      setOption false 'v'
      return (rest, !rest.isEmpty)
    | '-' :: letters => setOptions fuel (← setLetters true letters rest)
    | '+' :: letters => setOptions fuel (← setLetters false letters rest)
    | _ => return (a :: rest, true)

def runSet (args : List String) : Run Unit := do
  if args.isEmpty then
    let shown := (← sortedVariables).filterMap fun (name, v) =>
      v.value.map fun text => name ++ "=" ++ quoteText text
    writeOutput "set" (unlines shown)
  else
    let (rest, given) ← setOptions (args.length + 1) args
    if given then changeEnv fun e => { e with args := rest }
    setStatus 0

/-- The next option of the arguments. -/
def runGetopts (args : List String) : Run Unit := do
  match args with
  | letters :: name :: rest =>
    let e ← env
    let given := if rest.isEmpty then e.args else rest
    let index := (((← value? "OPTIND").getD "1").toNat?.getD 1) - 1
    let offset := e.optionOffset
    let silent := letters.startsWith ":"
    let finish (index offset : Nat) : Run Unit := do
      assign "OPTIND" (toString (index + 1))
      changeEnv fun e => { e with optionOffset := offset }
    let ended (index : Nat) : Run Unit := do
      finish index 0
      assign name "?"
      setStatus 1
    let arg := (given[index]?.getD "").toList
    if offset = 0 && (arg.length < 2 || arg.head? ≠ some '-') then ended index
    else if offset = 0 && arg = ['-', '-'] then ended (index + 1)
    else
      let at_ := if offset = 0 then 1 else offset
      let c := arg[at_]?.getD ' '
      let isLast := arg.length ≤ at_ + 1
      let (nextIndex, nextOffset) := if isLast then (index + 1, 0) else (index, at_ + 1)
      let known := c ≠ ':' && letters.toList.contains c
      let takesValue := (letters.toList.dropWhile (· ≠ c))[1]? = some ':'
      if !known then
        finish nextIndex nextOffset
        if silent then assign "OPTARG" (String.ofList [c])
        else
          write 2 ("Illegal option -" ++ String.ofList [c] ++ "\n")
          changeEnv fun e => { e with bindings := Members.erase "OPTARG" e.bindings }
        assign name "?"
        setStatus 0
      else if !takesValue then
        finish nextIndex nextOffset
        assign "OPTARG" ""
        assign name (String.ofList [c])
        setStatus 0
      else if !isLast then
        finish (index + 1) 0
        assign "OPTARG" (String.ofList (arg.drop (at_ + 1)))
        assign name (String.ofList [c])
        setStatus 0
      else
        match given[index + 1]? with
        | some value =>
          finish (index + 2) 0
          assign "OPTARG" value
          assign name (String.ofList [c])
          setStatus 0
        | none =>
          finish (index + 1) 0
          if silent then
            assign "OPTARG" (String.ofList [c])
            assign name ":"
          else
            write 2 ("No arg for -" ++ String.ofList [c] ++ " option\n")
            changeEnv fun e => { e with bindings := Members.erase "OPTARG" e.bindings }
            assign name "?"
          setStatus 0
  | _ => fault "Usage: getopts optstring var [arg...]" 2

/-! ## Directories -/

/-- The names of a path without dots, each `..` taking the name before it away. -/
def plainNames (path : String) : List String :=
  ((Text.splitOn '/' path.toList).map String.ofList).foldl (fun names piece =>
    if piece = "" || piece = "." then names
    else if piece = ".." then names.dropLast
    else names ++ [piece]) []

def runCd (args : List String) : Run Unit := do
  let (options, args) ← takeOptions ['L', 'P'] [] (args.length + 1) args
  let physical := lastOption? options = some 'P'
  let e ← env
  let target ← match args with
    | [] => pure ((← value? "HOME").getD "")
    | "-" :: _ => pure ((← value? "OLDPWD").getD e.directory)
    | a :: _ => pure a
  let path := if target = "" then "." else target
  let logical := "/" ++ Text.joinWith "/" (plainNames (Path.join e.directory path))
  let tree ← files
  let attempt := if physical then path else logical
  match tree.locate (toText attempt) with
  | .ok location =>
    if tree.entry? location = some .directory then
      let directory := if physical then ofText location.text else logical
      changeEnv fun e => { e with directory, location }
      assign "OLDPWD" e.directory
      assign "PWD" directory
      if args.head? = some "-" then write 1 (directory ++ "\n")
      setStatus 0
    else fault ("can't cd to " ++ target) 2
  | .error _ => fault ("can't cd to " ++ target) 2

def runPwd (args : List String) : Run Unit := do
  let (options, _) ← takeOptions ['L', 'P'] [] (args.length + 1) args
  let e ← env
  let physical := lastOption? options = some 'P'
  writeOutput "pwd" ((if physical then ofText e.location.text else e.directory) ++ "\n")

/-! ## Others -/

def runTrap (args : List String) : Run Unit := do
  let (_, args) ← if args.head? = some "-" then pure ([], args) else
    takeOptions [] [] (args.length + 1) args
  match args with
  | [] =>
    let traps := (← env).traps
    let shown := (List.range 65).filterMap fun n =>
      (Members.get? (toString n) traps).map fun action =>
        "trap -- " ++ quoteText action ++ " " ++ Signal.name n
    writeOutput "trap" (unlines shown)
  | first :: rest =>
    let isNumber := first ≠ "-" && first.toList.all Char.isDigit
    let resets := rest.isEmpty || (isNumber && (Signal.ofText? first).isSome)
    let (action, signals) : Option String × List String :=
      if resets then (none, args) else (if first = "-" then none else some first, rest)
    let mut failed := false
    for name in signals do
      if !failed then
        match Signal.ofText? name with
        | none =>
          write 2 ("trap: " ++ name ++ ": bad trap\n")
          failed := true
        | some n =>
          changeEnv fun e => { e with
            traps := match action with
              | some text => Members.put (toString n) text e.traps
              | none => Members.erase (toString n) e.traps }
    setStatus (if failed then 1 else 0)

/-- Waits for processes, which have ended already, and takes over the status of the last one. -/
def runWait (args : List String) : Run Unit := do
  let jobs := (← env).jobs
  let mut status := 0
  for a in args do
    match a.toNat? with
    | some n => status := ((jobs.find? (·.1 = n)).map (·.2)).getD 127
    | none => status := 2
  setStatus status

/-- The permissions that three bits leave. -/
def permissionLetters (bits : Nat) : String :=
  String.ofList ([(4, 'r'), (2, 'w'), (1, 'x')].filterMap fun (bit, c) =>
    if bits / bit % 2 = 0 then some c else none)

def runUmask (args : List String) : Run Unit := do
  let mask := (← env).mask
  match args with
  | [] =>
    let digits := Nat.toDigits 8 mask
    writeOutput "umask" (String.ofList (List.replicate (4 - digits.length) '0' ++ digits) ++ "\n")
  | ["-S"] =>
    writeOutput "umask" ("u=" ++ permissionLetters (mask / 64) ++ ",g=" ++
      permissionLetters (mask / 8) ++ ",o=" ++ permissionLetters mask ++ "\n")
  | text :: _ =>
    if text.toList.all fun c => (octalDigit? c).isSome then
      changeEnv fun e => { e with mask := (readOctal text.length 0 text.toList).1 % 512 }
      setStatus 0
    else if text.toList.any Char.isDigit then fault ("Illegal number: " ++ text) 2
    else setStatus 0

/-! ## Aliases -/

def aliasText (name value : String) : String := name ++ "=" ++ quoteText value ++ "\n"

/-- Sets aliases, or shows them. -/
def runAlias (args : List String) : Run Unit := do
  setStatus 0
  if args.isEmpty then
    writeOutput "alias" (String.join ((← env).aliases.map fun a => aliasText a.1 a.2))
  for a in args do
    match Text.cutAt? '=' a.toList with
    | some (c :: cs, value) =>
      let name := String.ofList (c :: cs)
      changeEnv fun e => { e with aliases := Members.put name (String.ofList value) e.aliases }
    | _ =>
      match Members.get? a (← env).aliases with
      | some value => write 1 (aliasText a value)
      | none =>
        write 2 ("alias: " ++ a ++ " not found\n")
        setStatus 1

def runUnalias (args : List String) : Run Unit := do
  let (options, names) ← takeOptions ['a'] [] (args.length + 1) args
  setStatus 0
  if !options.isEmpty then changeEnv fun e => { e with aliases := [] }
  else
    for name in names do
      if Members.has name (← env).aliases then
        changeEnv fun e => { e with aliases := Members.erase name e.aliases }
      else
        write 2 ("unalias: " ++ name ++ " not found\n")
        setStatus 1

/-! ## The table -/

/-- The built-in commands that need nothing but their arguments. -/
def builtin? (name : String) : Option (List String → Run Unit) :=
  match name with
  | ":" => some fun _ => setStatus 0
  | "true" => some fun _ => setStatus 0
  | "false" => some fun _ => setStatus 1
  | "echo" => some fun args => writeOutput "echo" (echo args)
  | "printf" => some runPrintf
  | "test" => some runTest
  | "[" => some runBracket
  | "read" => some runRead
  | "export" => some (markVariables "export" (fun v => { v with exported := true }) (·.exported))
  | "readonly" => some (markVariables "readonly" (fun v => { v with constant := true }) (·.constant))
  | "unset" => some runUnset
  | "local" => some runLocal
  | "shift" => some runShift
  | "set" => some runSet
  | "getopts" => some runGetopts
  | "cd" => some runCd
  | "chdir" => some runCd
  | "pwd" => some runPwd
  | "trap" => some runTrap
  | "wait" => some runWait
  | "umask" => some runUmask
  | "hash" => some fun _ => setStatus 0
  | "jobs" => some fun _ => setStatus 0
  | "alias" => some runAlias
  | "unalias" => some runUnalias
  | "ulimit" => some fun _ => writeOutput "ulimit" "unlimited\n"
  | "times" => some fun _ => writeOutput "times" "0m0.00s 0m0.00s\n0m0.00s 0m0.00s\n"
  | _ => none

/-- All built-in commands, with those that run others. -/
def builtinNames : List String := [
  ".", ":", "[", "alias", "bg", "break", "cd", "chdir", "command", "continue", "echo", "eval", "exec",
  "exit", "export", "false", "fg", "getopts", "hash", "jobs", "kill", "local", "printf", "pwd", "read",
  "readonly", "return", "set", "shift", "test", "times", "trap", "true", "type", "ulimit", "umask",
  "unalias", "unset", "wait"]

end CommandContract.Shell
