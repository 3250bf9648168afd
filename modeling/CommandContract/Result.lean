import CommandContract.Json.Fields

set_option autoImplicit false

/-!
# Results

What a host learns about one invocation: the output of the last command of its chain, or why it
stopped.
-/
namespace CommandContract

structure CommandResult where
  error : Option String
  output : Value
  /-- the host should end the session -/
  exit : Bool
  /-- every command that ran, in order -/
  chain : List String

namespace CommandResult

def failure (message : String) : CommandResult := ⟨some message, .null, false, []⟩

def isOk (r : CommandResult) : Bool := r.error.isNone

def fieldNames : List String := ["error", "output", "exit", "chain"]

def ofValue? (v : Value) : Option CommandResult := do
  let ms ← Fields.ofValue? fieldNames v
  let error ← Fields.optional "error" Value.string? ms
  let output ← Fields.required "output" some ms
  let exit ← Fields.withDefault "exit" false Fields.bool? ms
  let chain ← Fields.withDefault "chain" [] (Fields.list? Value.string?) ms
  some ⟨error, output, exit, chain⟩

end CommandResult

end CommandContract
