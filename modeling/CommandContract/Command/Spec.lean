import CommandContract.Parameter.Spec
import CommandContract.Text.Pieces

set_option autoImplicit false

/-!
# Declared commands

What the descriptors say about one command: its kind, its parameters, its effects on the session
state, and the rules that choose the command to run next.
-/
namespace CommandContract

inductive CommandKind where
  | nativeMethod
  | kernelPlugin
  | internal
  | externalMethod
  | custom
  deriving DecidableEq, Repr

/-- Where a value written to the state comes from; the first source that is given counts. -/
structure StateAssignment where
  parameter : Option String
  template : Option String
  value : Option Value

/-- State keys that are cleared if an argument and a condition are as said. -/
structure ConditionalClear where
  parameter : Option String
  equals : Option Value
  condition : Option String
  keys : List String

structure SideEffects where
  assignments : Members StateAssignment
  clears : List String
  conditionalClears : List ConditionalClear
  builtin : Option String

/-- The condition under which a command follows, and the templates of its arguments. -/
structure NextRule where
  condition : Option String
  arguments : Members Value

structure CommandSpec where
  name : String
  kind : CommandKind
  parameters : Parameters
  sideEffects : Option SideEffects
  next : Option (Members NextRule)
  successOutput : Option String
  description : Option String
  usageLine : Option String
  examples : List String
  source : Option String
  methodName : Option String
  resolvedPath : Option String
  extra : Members Value

namespace CommandKind

def all : List CommandKind := [nativeMethod, kernelPlugin, internal, externalMethod, custom]

def name : CommandKind → String
  | nativeMethod => "native-method"
  | kernelPlugin => "kernel-plugin"
  | internal => "internal"
  | externalMethod => "external-method"
  | custom => "custom"

def ofName? (name : String) : Option CommandKind := all.find? (·.name = name)

/-- Kinds whose source is a file. -/
def needsResolvedPath (k : CommandKind) : Bool := k = nativeMethod || k = externalMethod

end CommandKind

namespace SideEffects

/-- The host should end the session. -/
def signalsExit (e : SideEffects) : Bool := e.builtin = some "exit"

end SideEffects

namespace CommandSpec

def ofName (name : String) : CommandSpec where
  name
  kind := .custom
  parameters := []
  sideEffects := none
  next := none
  successOutput := none
  description := none
  usageLine := none
  examples := []
  source := none
  methodName := none
  resolvedPath := none
  extra := []

def withParameter (c : CommandSpec) (name : String) (p : ParameterSpec) : CommandSpec :=
  { c with parameters := Members.put name p c.parameters }

/-- The namespace and the last segment of a name with a slash in it. -/
def cutName? (name : String) : Option (String × String) :=
  (Text.cutAt? '/' name.toList.reverse).map fun (last, before) =>
    (String.ofList before.reverse, String.ofList last.reverse)

/-- All of the name before its last slash. -/
def namespace? (c : CommandSpec) : Option String := (cutName? c.name).map (·.1)

def lastSegment (c : CommandSpec) : String := ((cutName? c.name).map (·.2)).getD c.name

/-- The declared usage line, or one made of the parameters, the optional ones with a mark. -/
def usage (c : CommandSpec) : String :=
  match c.usageLine with
  | some line => line
  | none =>
    if c.parameters.isEmpty then c.name
    else
      let parts := c.parameters.map fun (name, p) => if p.isRequired then name else name ++ "?"
      c.name ++ "(" ++ Text.joinWith ", " parts ++ ")"

end CommandSpec

end CommandContract
