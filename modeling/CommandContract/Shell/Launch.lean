import CommandContract.Shell.Builtin
import CommandContract.Shell.Program
import CommandContract.Shell.Redirect

set_option autoImplicit false

/-!
# Starting programs

A program is started with words, its own name first, and variables. It shares the files and channels
of the shell that starts it. Some programs start others; a shell runs a text, a file, or its input.
-/
namespace CommandContract.Shell

/-! ## Utilities -/

/-- Runs the task of a utility. -/
def runTask (t : Utility.Call → Utility.Task Unit) (words : List String) (exported : Members String) :
    Run Nat := do
  let e ← env
  let s ← system
  let input ← waitingInput 0
  let seekable := match (e.streams.get? 0).bind s.channel? with
    | some (.file _ _ _ _) => true
    | _ => false
  let name := words.headD ""
  let call : Utility.Call := ⟨name, words.drop 1, exported⟩
  let (_, desk) := (t call).run (Utility.Desk.start (← files) input seekable)
  takeInput 0 desk.taken
  setFiles desk.files
  let mut refused := false
  for (stream, text) in desk.written.reverse do
    match stream with
    | .output =>
      if text ≠ "" then
        match ← tryWrite 1 text with
        | .ok () => pure ()
        | .error cause =>
          if !refused then write 2 (name ++ ": write error: " ++ cause.reason ++ "\n")
          refused := true
    | .errors => write 2 text
  return if refused then max desk.status 1 else desk.status

/-- The words of a text. Quotes and backslashes protect characters; the first argument is the quote
that is open, the second the word so far, turned round. -/
def argumentWords : Option Char → Option (List Char) → List Char → List String
  | _, none, [] => []
  | _, some w, [] => [String.ofList w.reverse]
  | none, w, '\\' :: c :: cs => argumentWords none (some (c :: w.getD [])) cs
  | none, w, c :: cs =>
    if isSpaceChar c then
      match w with
      | some w => String.ofList w.reverse :: argumentWords none none cs
      | none => argumentWords none none cs
    else if c = '\'' || c = '"' then argumentWords (some c) (some (w.getD [])) cs
    else argumentWords none (some (c :: w.getD [])) cs
  | some q, w, c :: cs =>
    if c = q then argumentWords none w cs else argumentWords (some q) (some (c :: w.getD [])) cs

/-- Starts a program at a path with words and variables. -/
abbrev Starts := String → List String → Members String → Run (Except FileError Ending)

/-- Starts a program that is looked for in the directories of the variables. -/
def startFound (start : Starts) (words : List String) (exported : Members String) :
    Run (Except FileError Ending) := do
  let name := words.headD ""
  if name.contains '/' then start name words exported
  else
    match findProgram (← files) ((Members.get? "PATH" exported).getD defaultPath) name with
    | .ok path => start path words exported
    | .error cause => return .error cause

/-- The status of a program that was perhaps not started, with a message. -/
def wrappedStatus (who name : String) (r : Except FileError Ending) : Run Nat := do
  match r with
  | .ok ending => return ending.status
  | .error cause =>
    write 2 (who ++ name ++ ": " ++ cause.reason ++ "\n")
    return if cause = .notFound then 127 else 126

/-- Runs a program with other variables, or shows them. -/
def runWithVariables (start : Starts) (who : String) :
    List String → Members String → Run Nat
  | [], exported => do
    write 1 (unlines (exported.map fun (name, value) => name ++ "=" ++ value))
    return 0
  | "-" :: rest, _ => runWithVariables start who rest []
  | "-i" :: rest, _ => runWithVariables start who rest []
  | "--" :: rest, exported => runWithVariables start who rest exported
  | "-u" :: name :: rest, exported => runWithVariables start who rest (Members.erase name exported)
  | word :: rest, exported => do
    match Text.dropLeading? ['-', 'S'] word.toList with
    | some text =>
      let words := argumentWords none none text ++ rest
      let r ← startFound start words exported
      wrappedStatus (who ++ ": ") (Utility.quoted (words.headD "")) r
    | none =>
      match Text.cutAt? '=' word.toList with
      | some (name, value) =>
        runWithVariables start who rest
          (Members.put (String.ofList name) (String.ofList value) exported)
      | none =>
        let r ← startFound start (word :: rest) exported
        wrappedStatus (who ++ ": ") (Utility.quoted word) r

/-- Lists of a length, the last one shorter. -/
def inGroups (length : Nat) : Nat → List String → List (List String)
  | 0, _ => []
  | _ + 1, [] => []
  | fuel + 1, words => words.take length :: inGroups length fuel (words.drop length)

/-- The calls that the words of an input ask for. -/
def argumentCalls (o : Utility.Choices) (command : List String) (text : String) : List (List String) :=
  let number (letter : Char) : Option Nat := (o.value? letter).bind String.toNat?
  let words :=
    if o.has '0' then (text.splitOn "\x00").filter (· ≠ "")
    else
      match (o.value? 'd').map String.toList with
      | some (d :: _) =>
        let pieces := Text.splitOn d text.toList
        (if pieces.getLast? = some [] then pieces.dropLast else pieces).map String.ofList
      | _ => argumentWords none none text.toList
  match o.value? 'I' with
  | some mark =>
    let found := (lines text).filter fun l => !l.toList.all isSpaceChar
    found.map fun l =>
      let line := String.ofList (l.toList.dropWhile isSpaceChar)
      command.map fun w => w.replace mark line
  | none =>
    match number 'n', number 'L' with
    | some n, _ => (inGroups (max n 1) (words.length + 1) words).map (command ++ ·)
    | none, some n =>
      let found := (lines text).filter fun l => !l.toList.all isSpaceChar
      (inGroups (max n 1) (found.length + 1) found).map fun ls =>
        command ++ ls.flatMap fun l => argumentWords none none l.toList
    | none, none => if words.isEmpty && o.has 'r' then [] else [command ++ words]

def argumentForms : List Utility.OptionForm := [
  Utility.flag '0' "null", Utility.valued 'd' "delimiter", Utility.valued 'n' "max-args",
  Utility.valued 'I' "", Utility.valued 'L' "max-lines", Utility.flag 'r' "no-run-if-empty",
  Utility.flag 't' "verbose", Utility.valued 'P' "max-procs", Utility.valued 's' "max-chars",
  Utility.flag 'x' "exit"]

/-- Runs calls one after the other, up to one that ends all; the status is that of the worst. -/
def runCalls (start : Starts) (who : String) (exported : Members String) (shows : Bool) :
    List (List String) → Nat → Run Nat
  | [], status => return status
  | words :: rest, status => do
    if shows then write 2 (Text.joinWith " " words ++ "\n")
    match ← startFound start words exported with
    | .error cause =>
      write 2 (who ++ ": " ++ words.headD "" ++ ": " ++ cause.reason ++ "\n")
      return if cause = .notFound then 127 else 126
    | .ok (.exited 0) => runCalls start who exported shows rest status
    | .ok (.exited 255) =>
      write 2 (who ++ ": " ++ words.headD "" ++ ": exited with status 255; aborting\n")
      return 124
    | .ok (.exited _) => runCalls start who exported shows rest 123
    | .ok (.signalled n) =>
      write 2 (who ++ ": " ++ words.headD "" ++ ": terminated by signal " ++ toString n ++ "\n")
      return 125

/-- Runs a program with the words of the input as its last arguments. -/
def runWithArguments (start : Starts) (who : String) (args : List String) (exported : Members String) :
    Run Nat := do
  match Utility.readOptions argumentForms false args with
  | .error message =>
    write 2 (who ++ ": " ++ message ++ "\nTry '" ++ who ++ " --help' for more information.\n")
    return 1
  | .ok o =>
    let text := match ← waitingInput 0 with
      | .ok text => text
      | .error _ => ""
    takeInput 0 text.length
    let command := if o.operands.isEmpty then ["echo"] else o.operands
    let (s, channel) := (← system).openChannel .nowhere
    setSystem s
    keepingStreams do
      putStream 0 channel
      runCalls start who exported (o.has 't') (argumentCalls o command text) 0

/-- Runs a program that stands behind options and a number of operands. -/
def runBehind (start : Starts) (who : String) (operands : Nat) (args : List String)
    (exported : Members String) : Run Nat := do
  let rec skip : List String → List String
    | "-n" :: _ :: rest => skip rest
    | "-k" :: _ :: rest => skip rest
    | "-s" :: _ :: rest => skip rest
    | a :: rest => if a.startsWith "-" then skip rest else a :: rest
    | [] => []
  let words := (skip args).drop operands
  if words.isEmpty then
    write 2 (who ++ ": missing operand\nTry '" ++ who ++ " --help' for more information.\n")
    return 125
  else
    let r ← startFound start words exported
    wrappedStatus (who ++ ": failed to run command ") (Utility.quoted (words.headD "")) r

/-! ## Shells -/

/-- The surroundings of a new shell. -/
def Environment.start (e : Environment) (name : String) (exported : Members String) : Environment :=
  let given := exported.map fun (n, v) => (n, (⟨some v, true, false⟩ : Variable))
  let own : List (String × Variable) := [
    ("IFS", ⟨some " \t\n", false, false⟩), ("OPTIND", ⟨some "1", false, false⟩),
    ("PS1", ⟨some "# ", false, false⟩), ("PS2", ⟨some "> ", false, false⟩),
    ("PS4", ⟨some "+ ", false, false⟩), ("PWD", ⟨some e.directory, true, false⟩)]
  let all := own.foldl (fun vs (n, v) => Members.put n v vs) given
  { Environment.outside e.directory e.location e.streams with
    name
    bindings :=
      if Members.has "PATH" all then all
      else Members.put "PATH" ⟨some defaultPath, false, false⟩ all
    traps := e.traps.filter fun t => t.2 = "" }

/-- Sets the options that a shell was called with. The answer tells whether a text to run follows.
-/
def startOptions : Nat → Bool → List String → Run (Bool × List String)
  | 0, asText, args => return (asText, args)
  | _ + 1, asText, [] => return (asText, [])
  | fuel + 1, asText, a :: rest => do
    match a.toList with
    | ['-'] => return (asText, rest)
    | ['-', '-'] => return (asText, rest)
    | '-' :: letters =>
      let left ← setLetters true (letters.filter (· ≠ 'c')) rest
      startOptions fuel (asText || letters.contains 'c') left
    | '+' :: letters =>
      let left ← setLetters false letters rest
      startOptions fuel asText left
    | _ => return (asText, a :: rest)

/-- What a shell does: it runs a text, a file, or its input. -/
def shellBody (run : Runs) (args : List String) : Run Unit := do
  let (asText, operands) ← startOptions (args.length + 1) false args
  if asText then
    match operands with
    | [] => fault "-c requires an argument" 2
    | text :: rest =>
      changeEnv fun e => { e with name := rest.headD e.name, args := rest.drop 1 }
      runText run false text
  else
    match operands, (← hasOption 's') with
    | path :: rest, false =>
      let tree ← files
      match tree.readBytes (toText path) with
      | .ok bytes =>
        changeEnv fun e => { e with name := path, args := rest }
        runText run false (ofBytes bytes)
      | .error .isDirectory => changeEnv fun e => { e with name := path, args := rest }
      | .error cause => fault (openMessage false path cause) 2
    | operands, _ =>
      changeEnv fun e => { e with args := operands }
      match ← waitingInput 0 with
      | .ok text =>
        takeInput 0 text.length
        runText run false text
      | .error _ => pure ()

/-- Runs a shell of its own, of which only files and channels stay. -/
def runShell (run : Runs) (words : List String) (exported : Members String) : Run Ending := do
  let outer ← env
  changeEnv fun e => e.start (words.headD "") exported
  let left ← attempt (toTheEnd run (shellBody run (words.drop 1)))
  let status := (← env).status
  changeEnv fun _ => outer
  match left with
  | some (.killed n) => return .signalled n
  | some (.replaced n) => return .exited (n % 256)
  | some (.exits n) => return .exited (n % 256)
  | some (.faults n) => return .exited (n % 256)
  | _ => return .exited (status % 256)

/-- Starts what runs for a path. Programs that run others may be nested down to a depth. -/
def startProgram (run : Runs) : Nat → Starts
  | 0, _, _, _ => return .error .tooManyLinks
  | depth + 1, path, words, exported => do
    match imageOf (← files) maxInterpreters path words with
    | .error cause => return .error cause
    | .ok image =>
      let who := image.words.headD ""
      let args := image.words.drop 1
      let start := startProgram run depth
      match image.runner with
      | .task t => return .ok (.exited (← runTask t image.words exported))
      | .shell => return .ok (← runShell run image.words exported)
      | .wrapper .environment => return .ok (.exited (← runWithVariables start who args exported))
      | .wrapper .arguments => return .ok (.exited (← runWithArguments start who args exported))
      | .wrapper (.plain n) => return .ok (.exited (← runBehind start who n args exported))

/-- Programs that run others may be nested this deep. -/
def maxWrappers : Nat := 20

/-- The words for a program that cannot be started, and the status. -/
def startMessage (name : String) (cause : FileError) : String × Nat :=
  match cause with
  | .notFound => (name ++ ": not found", 127)
  | .notDirectory => (name ++ ": not found", 127)
  | .tooManyLinks => (name ++ ": " ++ cause.reason, 127)
  | .nameTooLong => (name ++ ": " ++ cause.reason, 127)
  | cause => (name ++ ": " ++ cause.reason, 126)

/-- Runs a program by its words as a child of the shell, and leaves its status. A file that names no
interpreter is a script. -/
def runProgram (run : Runs) (words : List String) (exported : Members String) :
    Run (Except FileError Nat) := do
  let name := words.headD ""
  let directories := (← value? "PATH").getD ""
  let tree ← files
  let found := if name.contains '/' then .ok name else findProgram tree directories name
  match found with
  | .error cause => return .error cause
  | .ok path =>
    match ← startProgram run maxWrappers path words exported with
    | .ok (.exited n) => return .ok n
    | .ok (.signalled n) =>
      write 2 (Signal.description n ++ "\n")
      return .ok (128 + n)
    | .error .notExecutableFormat =>
      let ending ← runShell run ("sh" :: path :: words.drop 1) exported
      return .ok ending.status
    | .error cause => return .error cause

end CommandContract.Shell
