import CommandContract.Command.Call
import CommandContract.Handler.Invocation

set_option autoImplicit false

/-!
# Built-in handlers

Four handlers for internal commands, chosen by the last segment of a command's name, so that a
command keeps its handler when its tree stands under a namespace.
-/
namespace CommandContract

inductive Builtin where
  | help
  | exit
  | state
  | echo
  deriving DecidableEq, Repr

namespace Builtin

def all : List Builtin := [help, exit, state, echo]

def name : Builtin → String
  | help => "help"
  | exit => "exit"
  | state => "state"
  | echo => "echo"

/-- The handler of an internal command. -/
def ofSpec? (c : CommandSpec) : Option Builtin :=
  if c.kind = .internal then all.find? (·.name = c.lastSegment) else none

/-! ## Help -/

/-- A line for every command, descriptions in one column. -/
def overview (m : Manifest) : String :=
  let width := (m.commands.map fun (_, c) => c.usage.length).foldl max 0
  let lines := m.commands.map fun (_, c) =>
    match c.description with
    | some d => "  " ++ Text.padRight width c.usage ++ "  " ++ d
    | none => "  " ++ c.usage
  Text.joinWith "\n" ([m.name ++ " v" ++ m.version] ++ m.description.toList ++ [""] ++ lines)

def parameterLine (name : String) (p : ParameterSpec) : String :=
  "  " ++ name ++ " (" ++ p.declaredType ++ (if p.isRequired then ", required" else "") ++ ")" ++
    (match p.default with
      | some v => " default " ++ v.compact
      | none => "") ++
    (match p.allowed with
      | some values => " one of " ++ Text.joinWith "|" (values.map Value.compact)
      | none => "") ++
    (match p.description with
      | some d => ": " ++ d
      | none => "")

/-- Usage, description, parameters and examples of one command. -/
def describe (c : CommandSpec) : String :=
  let parameters :=
    if c.parameters.isEmpty then []
    else ["", "Parameters:"] ++ c.parameters.map fun (name, p) => parameterLine name p
  let examples :=
    if c.examples.isEmpty then [] else ["", "Examples:"] ++ c.examples.map ("  " ++ ·)
  Text.joinWith "\n" ([c.usage] ++ c.description.toList.map ("  " ++ ·) ++ parameters ++ examples)

def runHelp (i : Invocation) : Except String Value :=
  match (i.text? "command").filter (!·.isBlankText) with
  | none => .ok (.string (overview i.manifest))
  | some name =>
    match i.manifest.get? name with
    | some c => .ok (.string (describe c))
    | none => .error (unknownCommandMessage name)

/-- One key of the state, or all of it. -/
def runState (i : Invocation) : Value :=
  match i.text? "key" with
  | some key => .object [(key, (i.state.get? key).getD .null)]
  | none => i.state.snapshot

def run (b : Builtin) (i : Invocation) : Except String Value :=
  match b with
  | help => runHelp i
  | exit => .ok (.string "Goodbye.")
  | state => .ok (runState i)
  | echo => .ok (.object i.args)

end Builtin

end CommandContract
