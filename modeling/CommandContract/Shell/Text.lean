import CommandContract.Shell.Expansion

set_option autoImplicit false

/-!
# Running texts

Commands are run as they are read. A command that runs others gets a way to run them. A command is
*tested* if what follows depends on its status; a test that fails never ends a shell. What is to be
done at the end of a shell is a text too.
-/
namespace CommandContract.Shell

/-- Runs a command, which may be tested. -/
abbrev Runs := Bool → Command → Run Unit

/-- How a program ended. -/
inductive Ending where
  | exited (status : Nat)
  | signalled (signal : Nat)
  deriving DecidableEq, Repr

def Ending.status : Ending → Nat
  | exited n => n
  | signalled n => 128 + n

/-- A command that fails without a test ends the shell, if that is asked for. -/
def checkExit (tested : Bool) : Run Unit := do
  let e ← env
  if !tested && e.status ≠ 0 && e.options.contains 'e' then throw (.exits e.status)

/-! ## Texts -/

def Command.isNothing : Command → Bool
  | .sequence [] => true
  | _ => false

/-- Runs the complete commands of a text; the answer tells whether there was one. -/
def runSource (run : Runs) (tested : Bool) : Nat → Source → Run Bool
  | 0, _ => return false
  | count + 1, source => do
    let known := (← env).documents
    let aliases := (← env).aliases
    let source := { source with documents := known, numbered := known.length, aliases }
    match (readLine source.steps).run source with
    | .error f => do
      changeEnv fun e => { e with line := f.line }
      fault f.message 2
    | .ok (none, _) => return false
    | .ok (some c, rest) =>
      changeEnv fun e => { e with documents := rest.documents }
      if c.isNothing then runSource run tested count rest
      else
        if !(← hasOption 'n') then run tested c
        let _ ← runSource run tested count rest
        return true

/-- Runs a text in the shell at hand; one without commands succeeds. -/
def runText (run : Runs) (tested : Bool) (text : String) : Run Unit := do
  let any ← runSource run tested (text.length + 2) (Source.ofScript text 1)
  if !any then setStatus 0

/-- Runs the action for the end of a shell, if there is one. The status stays what it was unless the
action exits with another one. -/
def runExitTrap (run : Runs) : Run Unit := do
  match Members.get? "0" (← env).traps with
  | some action =>
    let status := (← env).status
    changeEnv fun e => { e with traps := Members.erase "0" e.traps }
    let _ ← runSource run false (action.length + 2) (Source.ofScript action 1)
    setStatus status
  | none => pure ()

/-- Runs a shell to its end, with what is to be done then. -/
def toTheEnd (run : Runs) (body : Run Unit) : Run Unit := do
  match ← attempt body with
  | some (.killed n) => throw (.killed n)
  | some (.replaced n) => throw (.replaced n)
  | some (.exits n) =>
    setStatus n
    runExitTrap run
  | some (.faults n) =>
    setStatus n
    runExitTrap run
  | some (.returns n) =>
    setStatus n
    runExitTrap run
  | some (.breaks _) => runExitTrap run
  | some (.continues _) => runExitTrap run
  | none => runExitTrap run

/-- Runs a command as a shell of its own would. -/
def runInner (run : Runs) (c : Command) : Run Unit := toTheEnd run (run false c)

end CommandContract.Shell
