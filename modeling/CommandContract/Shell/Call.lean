import CommandContract.Shell.Launch

set_option autoImplicit false

/-!
# Calls

A simple command calls a function, a built-in command or a program. Its words, its redirections and
its assignments are expanded in this order.
-/
namespace CommandContract.Shell

/-! ## Built-in commands that run others -/

/-- The number behind `break` and `continue`. -/
def loopCount (args : List String) : Run Nat := do
  match args with
  | [] => return 1
  | text :: _ =>
    let n ← needNumber text
    if n = 0 then fault ("Illegal number: " ++ text) 2 else return n

/-- Lets a signal reach the shell: a trap runs, or the shell ends. -/
def receive (run : Runs) (n : Nat) : Run Unit := do
  let traps := (← env).traps
  match if n = 9 || n = 19 then none else Members.get? (toString n) traps with
  | some "" => pure ()
  | some action =>
    let status := (← env).status
    let speaker := (← env).speaker
    changeEnv fun e => { e with speaker := none }
    let _ ← runSource run false (action.length + 2) (Source.ofScript action 1)
    changeEnv fun e => { e with speaker, status }
  | none => if Signal.isHarmless n then pure () else throw (.killed n)

def killUsage : String :=
  "Usage: kill [-s sigspec | -signum | -sigspec] [pid | job]... or\nkill -l [exitstatus]"

/-- The signal that options ask for, and what follows them. -/
def killedWith? : List String → Except String (Nat × List String)
  | "-s" :: name :: rest =>
    match Signal.ofText? name with
    | some n => .ok (n, rest)
    | none => .error ("invalid signal number or name: " ++ name)
  | "--" :: rest => .ok (15, rest)
  | a :: rest =>
    match a.toList with
    | '-' :: c :: cs =>
      match Signal.ofText? (String.ofList (c :: cs)) with
      | some n => .ok (n, if rest.head? = some "--" then rest.drop 1 else rest)
      | none => .error ("Illegal option -" ++ String.ofList [c])
    | _ => .ok (15, a :: rest)
  | [] => .ok (15, [])

def runKill (run : Runs) (args : List String) : Run Unit := do
  match args with
  | "-l" :: rest =>
    match rest.head?.bind String.toNat? with
    | some n => writeOutput "kill" (Signal.name (if n > 128 then n - 128 else n) ++ "\n")
    | none => writeOutput "kill" (unlines ("0" :: Signal.names.drop 1))
  | args =>
    match killedWith? args with
    | .error message => fault message 2
    | .ok (_, []) => fault killUsage 2
    | .ok (signal, targets) =>
      setStatus 0
      for target in targets do
        if target = processNumber || target = "0" then
          if signal ≠ 0 then receive run signal
        else
          match target.toNat? with
          | some n =>
            if !(← env).jobs.any (·.1 = n) then
              complain "No such process\n"
              setStatus 1
          | none =>
            if target.startsWith "%" then pure ()
            else if target.startsWith "-" && (target.drop 1).isNat then
              complain "No such process\n"
              setStatus 1
            else fault ("Illegal number: " ++ target) 2

/-- Says what a word names for the shell. -/
def describe (name : String) : Run (Option String × String) := do
  if let some value := Members.get? name (← env).aliases then
    return (some ("alias " ++ name ++ "=" ++ quoteText value), name ++ " is an alias for " ++ value)
  else if keywords.contains name then return (some name, name ++ " is a shell keyword")
  else
    let e ← env
    if specialNames.contains name then return (some name, name ++ " is a special shell builtin")
    else if Members.has name e.functions then return (some name, name ++ " is a shell function")
    else if builtinNames.contains name then return (some name, name ++ " is a shell builtin")
    else if name.contains '/' then
      if (← files).pathExists (toText name) || ((systemName? (toText name)).bind runner?).isSome then
        return (some name, name ++ " is " ++ name)
      else return (none, name ++ ": not found")
    else
      match findProgram (← files) ((← value? "PATH").getD "") name with
      | .ok path => return (some path, name ++ " is " ++ path)
      | .error _ => return (none, name ++ ": not found")

def runType (args : List String) : Run Unit := do
  let mut status := 0
  for name in args do
    let (found, text) ← describe name
    if found.isNone then status := 127
    write 1 (text ++ "\n")
  setStatus status

/-- Shows how words would be understood as commands. -/
def showCommands (verbose : Bool) (args : List String) : Run Unit := do
  if verbose then runType args
  else
    let mut status := 0
    for name in args do
      match (← describe name).1 with
      | some text => write 1 (text ++ "\n")
      | none => status := 127
    setStatus status

/-- Runs the commands of a file in the shell at hand. -/
def runDot (run : Runs) (args : List String) : Run Unit := do
  match args with
  | [] => setStatus 0
  | name :: _ =>
    let directories := (← value? "PATH").getD ""
    let tree ← files
    match if name.contains '/' then .ok name else findProgram tree directories name with
    | .error _ => fault (name ++ ": not found") 2
    | .ok path =>
      match tree.readBytes (toText path) with
      | .error cause => fault (openMessage false path cause) 2
      | .ok bytes =>
        changeEnv fun e => { e with speaker := some path }
        match ← attempt (runText run false (ofBytes bytes)) with
        | none => pure ()
        | some (.returns n) => setStatus n
        | some leave => throw leave

/-- Puts another program in the place of the shell. -/
def runExec (run : Runs) (words : List String) : Run Unit := do
  match words with
  | [] => setStatus 0
  | _ =>
    match ← runProgram run words (← exportedValues) with
    | .ok n => throw (.replaced n)
    | .error cause =>
      let (message, status) := startMessage (words.headD "") cause
      complain message
      throw (.exits status)

/-- Runs a built-in command. A fault of one that is not special only fails. -/
def callBuiltin (special : Bool) (name : String) (body : Run Unit) : Run Unit := do
  let before := (← env).speaker
  changeEnv fun e => { e with speaker := some name }
  let left ← attempt body
  changeEnv fun e => { e with speaker := before }
  match left with
  | none => pure ()
  | some (.faults n) => if special then throw (.faults n) else setStatus n
  | some leave => throw leave

/-! ## Simple commands -/

/-- Gives values back to variables. -/
def restore (saved : List (String × Option Variable)) : Run Unit :=
  changeEnv fun e => { e with
    bindings := saved.foldl (fun vs (name, before) =>
      match before with
      | some v => Members.put name v vs
      | none => Members.erase name vs) e.bindings }

/-- Gives values to variables one after the other, so that later words see the earlier ones. -/
def assignWords (run : Runs) (exports : Bool) : List (String × Word) → Run (List (String × String))
  | [] => return []
  | (name, w) :: rest => do
    let value ← expandText (runInner run) true w
    assign name value
    if exports then
      match ← binding? name with
      | some v => setVariable name { v with exported := true }
      | none => pure ()
    return (name, value) :: (← assignWords run exports rest)

/-- Runs something and gives variables their values back afterwards. -/
def keepingVariables (names : List String) (body : Run Unit) : Run Unit := do
  if names.isEmpty then body
  else
    let before := (← env).bindings
    let saved := names.map fun name => (name, Members.get? name before)
    let left ← attempt body
    restore saved
    match left with
    | none => pure ()
    | some leave => throw leave

/-- Functions may call each other this deep. -/
def maxCalls : Nat := 1000

/-- Calls a function: it has arguments and local variables of its own. -/
def callFunction (run : Runs) (tested : Bool) (body : Command) (args : List String) : Run Unit := do
  let outer ← env
  if outer.calls ≥ maxCalls then
    fault "Maximum function recursion depth (1000) reached" 2
  else
    changeEnv fun e => { e with
      args, calls := e.calls + 1, loops := 0, hidden := [] :: e.hidden, optionOffset := 0 }
    let left ← attempt (run tested body)
    restore ((← env).hidden.headD [])
    changeEnv fun e => { e with
      args := outer.args, calls := outer.calls, loops := outer.loops, hidden := outer.hidden
      optionOffset := outer.optionOffset }
    match left with
    | none => pure ()
    | some (.returns n) => setStatus n
    | some leave => throw leave

/-- Runs a program as a command. -/
def callProgram (run : Runs) (words : List String) : Run Unit := do
  match ← runProgram run words (← exportedValues) with
  | .ok n => setStatus n
  | .error cause =>
    let (message, status) := startMessage (words.headD "") cause
    complain message
    setStatus status

/-- Runs the built-in command of a name, if there is one. -/
def builtinFor? (run : Runs) (tested : Bool) (name : String) (args : List String) : Option (Run Unit) :=
  match name with
  | "eval" => some (runText run tested (Text.joinWith " " args))
  | "." => some (runDot run args)
  | "exec" => some (runExec run args)
  | "exit" => some do
    let n ← match args with
      | text :: _ => needNumber text
      | [] => pure (← env).status
    throw (.exits (n % 256))
  | "return" => some do
    let n ← match args with
      | text :: _ => needNumber text
      | [] => pure (← env).status
    throw (.returns n)
  | "break" => some do
    let n ← loopCount args
    setStatus 0
    let loops := (← env).loops
    if loops > 0 then throw (.breaks (min n loops))
  | "continue" => some do
    let n ← loopCount args
    setStatus 0
    let loops := (← env).loops
    if loops > 0 then throw (.continues (min n loops))
  | "kill" => some (runKill run args)
  | "type" => some (runType args)
  | "bg" => some (fault "No current job" 2)
  | "fg" => some (fault "No current job" 2)
  | name => (builtin? name).map fun f => f args

/-- The command behind `command` and its options, or what it is asked to show. -/
def unwrapCommand : List String → Except (Bool × List String) (List String)
  | "-p" :: rest => unwrapCommand rest
  | "-v" :: rest => .error (false, rest)
  | "-V" :: rest => .error (true, rest)
  | "--" :: rest => .ok rest
  | words => .ok words

/-- Runs words that are not a function. -/
def callPlain (run : Runs) (tested special : Bool) (words : List String) : Run Unit := do
  let name := words.headD ""
  match builtinFor? run tested name (words.drop 1) with
  | some body => callBuiltin (special && specialNames.contains name) name body
  | none => callProgram run words

/-- Runs the words of a command. -/
def callWords (run : Runs) (tested : Bool) (words : List String) : Run Unit := do
  match words with
  | [] => pure ()
  | "command" :: rest =>
    match unwrapCommand rest with
    | .error (verbose, names) => showCommands verbose (names.take 1)
    | .ok [] => setStatus 0
    | .ok words => callPlain run tested false words
  | name :: args =>
    let functions := (← env).functions
    match if specialNames.contains name then none else Members.get? name functions with
    | some body => callFunction run tested body args
    | none => callPlain run tested true words

/-- Shows a command before it runs, if that is asked for. -/
def showTraced (values : List (String × String)) (words : List String) : Run Unit := do
  if ← hasOption 'x' then
    let lead := (← value? "PS4").getD ""
    let shown := values.map (fun (name, value) => name ++ "=" ++ value) ++ words
    write 2 (lead ++ Text.joinWith " " shown ++ "\n")

/-- Runs a simple command: words, redirections and assignments are expanded in this order. -/
def evalSimple (run : Runs) (tested : Bool) (line : Nat) (assignments : List (String × Word))
    (words : List Word) (redirections : List Redirection) : Run Unit := do
  changeEnv fun e => { e with line, innerStatus := 0 }
  let inner := runInner run
  let fields ← expandWords inner words
  let special := specialNames.contains (fields.headD "")
  let targets ← redirections.mapM (expandTarget run)
  let body : Run Unit := do
    if ← follow targets then
      if fields.isEmpty then
        showTraced (← assignWords run false assignments) []
        setStatus (← env).innerStatus
      else if special then
        showTraced (← assignWords run false assignments) fields
        callWords run tested fields
      else
        keepingVariables (assignments.map (·.1)) do
          showTraced (← assignWords run true assignments) fields
          callWords run tested fields
    else
      setStatus 2
      if special then throw (.faults 2)
  if fields = ["exec"] then body else keepingStreams body
  checkExit tested

end CommandContract.Shell
