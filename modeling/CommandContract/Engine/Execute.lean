import CommandContract.Chain.Run
import CommandContract.Result

set_option autoImplicit false

/-!
# What an engine does

Reading, validating and running commands. A line that cannot be read gives a failed result, like a
command that fails.
-/
namespace CommandContract

inductive RequestError where
  | unknownCommand (name : String)
  | validation (cause : ValidationError)

def RequestError.message : RequestError → String
  | unknownCommand name => unknownCommandMessage name
  | validation cause => cause.message

/-- The result of a chain, however it ended. -/
def CommandResult.ofChain (p : Chain.Progress) : Except ChainFailure Value → CommandResult
  | .ok output => ⟨none, output, p.exit, p.chain⟩
  | .error failure => ⟨some failure.message, .null, p.exit, p.chain⟩

namespace Engine

def parse (e : Engine) (s : Session) (line : String) : Except LineError Call :=
  Call.parse s.tree e.manifest s.state line

/-- Validates arguments without looking at the state and without running anything. -/
def validate (e : Engine) (tree : FileTree) (command : String) (args : Members Value) :
    Except RequestError (Members Value) :=
  match e.manifest.get? command with
  | none => .error (.unknownCommand command)
  | some c =>
    match Validation.validate tree c.parameters args with
    | .ok args => .ok args
    | .error cause => .error (.validation cause)

def run (e : Engine) (stamp : Stamp) (s : Session) (call : Call) : Session × CommandResult :=
  let (p, result) := Chain.run e stamp s call
  (⟨p.tree, p.state⟩, CommandResult.ofChain p result)

def execute (e : Engine) (stamp : Stamp) (s : Session) (line : String) : Session × CommandResult :=
  match e.parse s line with
  | .ok call => e.run stamp s call
  | .error cause => (s, CommandResult.failure cause.message)

end Engine

end CommandContract
