import CommandContract.Members
import CommandContract.Shell.Channel
import CommandContract.Shell.Reader

set_option autoImplicit false

/-!
# The state of a shell

A shell has variables, arguments, functions, options, a working directory and streams. A subshell
begins with a copy of all that; files and channels are shared by all.
-/
namespace CommandContract.Shell

/-- A variable has a value or only a mark. -/
structure Variable where
  value : Option String
  exported : Bool
  constant : Bool
  deriving DecidableEq, Repr

structure Environment where
  /-- the text that the script was started under -/
  name : String
  args : List String
  bindings : Members Variable
  functions : Members Command
  /-- texts that stand for the first words of commands -/
  aliases : Members String
  /-- the permissions that new files do not get, as a number; it is only shown -/
  mask : Nat
  /-- the letters of the options that are set -/
  options : List Char
  /-- what is run on a signal; nothing ignores it -/
  traps : Members String
  directory : String
  location : Location
  streams : Streams
  status : Nat
  /-- of the last script inside a word -/
  innerStatus : Nat
  /-- of the command that runs -/
  line : Nat
  /-- the built-in command that runs -/
  speaker : Option String
  /-- loops and functions around it -/
  loops : Nat
  calls : Nat
  /-- what local variables hide, innermost call first -/
  hidden : List (List (String × Option Variable))
  documents : List (Nat × Word)
  /-- the processes in the background that were started, last first, with their statuses -/
  jobs : List (Nat × Nat)
  /-- the options that are still to be looked at by `getopts`, inside an argument -/
  optionOffset : Nat
  isSubshell : Bool

/-- What stands around the first program: nothing but a directory and streams. -/
def Environment.outside (directory : String) (location : Location) (streams : Streams) :
    Environment := {
  name := ""
  args := []
  bindings := []
  functions := []
  aliases := []
  mask := 18
  options := []
  traps := []
  directory
  location
  streams
  status := 0
  innerStatus := 0
  line := 0
  speaker := none
  loops := 0
  calls := 0
  hidden := []
  documents := []
  jobs := []
  optionOffset := 0
  isSubshell := false }

structure Machine where
  environment : Environment
  system : System

/-- Why a command does not end in the ordinary way. -/
inductive Leave where
  | breaks (loops : Nat)
  | continues (loops : Nat)
  | returns (status : Nat)
  | exits (status : Nat)
  /-- a fault that ends a shell which is not asked at a terminal -/
  | faults (status : Nat)
  | killed (signal : Nat)
  /-- another program has taken the place of the shell and has ended -/
  | replaced (status : Nat)
  deriving DecidableEq, Repr

abbrev Run := ExceptT Leave (StateM Machine)

/-! ## Parts of the state -/

def env : Run Environment := return (← get).environment

def changeEnv (f : Environment → Environment) : Run Unit :=
  modify fun m => { m with environment := f m.environment }

def system : Run System := return (← get).system

def setSystem (s : System) : Run Unit := modify fun m => { m with system := s }

def setStatus (n : Nat) : Run Unit := changeEnv fun e => { e with status := n }

def hasOption (c : Char) : Run Bool := return (← env).options.contains c

/-- The files, seen from the working directory. -/
def files : Run FileTree := do
  let m ← get
  return { m.system.files with workingDirectory := m.environment.location }

def setFiles (tree : FileTree) : Run Unit :=
  modify fun m => { m with system := { m.system with files := tree } }

/-! ## Streams -/

/-- Writes to a stream; a stream that is closed or only read refuses. -/
def tryWrite (stream : Nat) (text : String) : Run (Except FileError Unit) := do
  match (← env).streams.get? stream with
  | none => return .error .badHandle
  | some channel =>
    match (← system).write channel text with
    | .ok s =>
      setSystem s
      return .ok ()
    | .error cause => return .error cause

def write (stream : Nat) (text : String) : Run Unit := do
  let _ ← tryWrite stream text

/-- What can still be read from a stream. -/
def waitingInput (stream : Nat) : Run (Except FileError String) := do
  match (← env).streams.get? stream with
  | none => return .error .badHandle
  | some channel => return (← system).waiting channel

def takeInput (stream count : Nat) : Run Unit := do
  match (← env).streams.get? stream with
  | none => pure ()
  | some channel => setSystem ((← system).take channel count)

/-! ## Messages -/

/-- A message under the name of the script, with the line and the built-in command that speaks. -/
def complain (message : String) : Run Unit := do
  let e ← env
  let who := match e.speaker with
    | some s => s ++ ": "
    | none => ""
  write 2 (e.name ++ ": " ++ toString e.line ++ ": " ++ who ++ message ++ "\n")

/-- Reports a fault that ends the shell, or the built-in command that runs. -/
def fault {α : Type} (message : String) (status : Nat) : Run α := do
  complain message
  setStatus status
  throw (.faults status)

/-! ## Variables -/

def binding? (name : String) : Run (Option Variable) := return Members.get? name (← env).bindings

/-- The value of a variable, if it has one. -/
def value? (name : String) : Run (Option String) := return (← binding? name).bind (·.value)

def setVariable (name : String) (v : Variable) : Run Unit :=
  changeEnv fun e => { e with bindings := Members.put name v e.bindings }

/-- Gives a value to a variable; one that is constant refuses. -/
def assign (name value : String) : Run Unit := do
  let exportAll ← hasOption 'a'
  match ← binding? name with
  | some v =>
    if v.constant then fault (name ++ ": is read only") 2
    else setVariable name { v with value := some value, exported := v.exported || exportAll }
  | none => setVariable name ⟨some value, exportAll, false⟩
  if name = "OPTIND" then changeEnv fun e => { e with optionOffset := 0 }

/-- The variables that other programs get. -/
def exportedValues : Run (Members String) := do
  return (← env).bindings.filterMap fun (name, v) =>
    if v.exported then v.value.map fun s => (name, s) else none

/-- The number that a shell sees as its own. -/
def processNumber : String := "1000"

/-- The letters that `$-` shows, in their order. -/
def shownLetters : List Char :=
  ['u', 'b', 'a', 'C', 'E', 'V', 'v', 'x', 's', 'n', 'm', 'i', 'I', 'f', 'e']

/-- Runs something, and tells how it was left if it did not end in the ordinary way. -/
def attempt (body : Run Unit) : Run (Option Leave) := do
  try
    body
    return none
  catch leave => return some leave

/-- Runs something and gives its streams back afterwards, however it ends. -/
def keepingStreams {α : Type} (run : Run α) : Run α := do
  let before := (← env).streams
  try
    let a ← run
    changeEnv fun e => { e with streams := before }
    return a
  catch leave =>
    changeEnv fun e => { e with streams := before }
    throw leave

/-- Runs something in a copy of the shell, of which only files and channels stay. What kills a
process kills all that are around it here. -/
def inSubshell (run : Run Unit) : Run Nat := do
  let outer ← env
  changeEnv fun e => { e with
    isSubshell := true, traps := e.traps.filter fun t => t.2 = "", loops := 0 }
  let status ←
    try
      run
      pure (← env).status
    catch leave =>
      match leave with
      | .exits n => pure n
      | .faults n => pure n
      | .returns n => pure n
      | .replaced n => pure n
      | .killed n =>
        changeEnv fun _ => outer
        throw (.killed n)
      | _ => pure (← env).status
  changeEnv fun _ => outer
  return status

/-- Runs something with a stream collected. -/
def collectingOutput (run : Run Nat) : Run (String × Nat) := do
  let (s, channel) := (← system).openChannel (.collecting "")
  setSystem s
  let outer := (← env).streams
  changeEnv fun e => { e with streams := e.streams.put 1 channel }
  let status ← run
  changeEnv fun e => { e with streams := outer }
  return ((← system).collected channel, status)

end CommandContract.Shell
