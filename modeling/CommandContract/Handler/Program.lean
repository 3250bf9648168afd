import CommandContract.Handler.Invocation
import CommandContract.Json.Printer
import CommandContract.Json.Reader
import CommandContract.Shell.Run
import CommandContract.Text.Blank

set_option autoImplicit false

/-!
# Programs as handlers

A command may be run by a program outside. It is started with the method name of the command as
its argument and reads the arguments as JSON; what it writes is JSON again, or else text. The
programs known here are the scripts of the tree and a few utilities.
-/
namespace CommandContract

structure Program where
  path : String
  method : Option String
  /-- the working directory of the program -/
  directory : String
  deriving DecidableEq, Repr

namespace Program

/-- The program of an external command with a resolved path. -/
def ofSpec? (root : String) (c : CommandSpec) : Option Program :=
  if c.kind = .externalMethod then c.resolvedPath.map fun path => ⟨path, c.methodName, root⟩
  else none

/-- Why a program was not started. -/
inductive StartFault where
  | system (cause : FileError)
  /-- a text that is handed over holds the character that ends one -/
  | nulInText
  deriving DecidableEq, Repr

def StartFault.message : StartFault → String
  | system cause => cause.message
  | nulInText => "nul byte found in provided data"

inductive Fault where
  | notStarted (path : String) (cause : StartFault)
  | failed (ending : Shell.Ending) (errors : String)
  deriving DecidableEq, Repr

def Fault.message : Fault → String
  | notStarted path cause => "cannot start " ++ path ++ ": " ++ cause.message
  | failed ending errors =>
    let status := match ending with
      | .exited n => toString n
      | .signalled _ => "signal"
    "exited with status " ++ status ++ (if errors.isEmpty then "" else ": " ++ errors)

/-- What a program leaves: how it ended, the bytes of its two streams, and the files. -/
structure Outcome where
  ending : Shell.Ending
  output : List Nat
  errors : List Nat
  files : FileTree

/-- What every program is told about its surroundings. -/
def surroundings (directory : String) : Members String :=
  [("HOME", "/root"), ("PATH", Shell.defaultPath), ("PWD", directory)]

/-- The channels of a program that is started: what it reads, and what it writes. -/
def channels (input : String) : Array Shell.Channel :=
  #[.waiting input, .collecting "", .collecting ""]

/-- The state of a machine in front of a program. -/
def machine (tree : FileTree) (directory : Location) (input : List Nat) : Shell.Machine :=
  let path := Shell.ofText directory.text
  let outside := Shell.Environment.outside path directory [(0, 0), (1, 1), (2, 2)]
  ⟨outside, ⟨tree, channels (Shell.ofBytes input)⟩⟩

/-- Where the file of a program is: a name without a slash is looked for among the programs of the
system. -/
def locate (tree : FileTree) (path : String) : Except FileError String :=
  if path.contains '/' then .ok path else Shell.findProgram tree Shell.defaultPath path

/-- Starts a program and runs it to its end. -/
def start (tree : FileTree) (p : Program) (input : List Nat) : Except StartFault Outcome := do
  let texts := p.path :: p.directory :: p.method.toList
  if texts.any fun t => t.contains '\x00' then .error .nulInText
  else
    let directory ← (tree.locate p.directory).mapError .system
    let here := { tree with workingDirectory := directory }
    let path ← (locate here (Shell.ofText p.path)).mapError .system
    let words := Shell.ofText p.path :: p.method.toList.map Shell.ofText
    let m := machine tree directory input
    let run := Shell.startProgram (Shell.eval Shell.maxDepth) Shell.maxWrappers path words
      (surroundings m.environment.directory)
    let (result, m) := run.run m
    let done (ending : Shell.Ending) : Outcome := {
      ending
      output := Shell.toBytes (m.system.collected 1)
      errors := Shell.toBytes (m.system.collected 2)
      files := { m.system.files with workingDirectory := tree.workingDirectory } }
    match result with
    | .ok (.ok ending) => .ok (done ending)
    | .ok (.error cause) => .error (.system cause)
    | .error (.killed n) => .ok (done (.signalled n))
    | .error _ => .ok (done (.exited m.environment.status))

/-- The value that a program wrote: nothing as `null`, else JSON, else text. -/
def valueOf (output : List Nat) : Value :=
  let text := (Text.ofUtf8 output).trimBlank
  if text.isEmpty then .null else (Value.ofJson? text).getD (.string text)

/-- Runs a program on arguments: the files after it, and what it answered. -/
def run (tree : FileTree) (p : Program) (args : Members Value) : FileTree × Except Fault Value :=
  match start tree p (Text.utf8 (Value.object args).compact) with
  | .error cause => (tree, .error (.notStarted p.path cause))
  | .ok outcome =>
    match outcome.ending with
    | .exited 0 => (outcome.files, .ok (valueOf outcome.output))
    | ending => (outcome.files, .error (.failed ending (Text.ofUtf8 outcome.errors).trimBlank))

end Program

end CommandContract
