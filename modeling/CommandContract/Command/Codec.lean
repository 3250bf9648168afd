import CommandContract.Command.Spec

set_option autoImplicit false

/-!
# Commands as JSON

Reading a command from its merged descriptor, and writing it again: the fields in a fixed order,
those without content left out, then the members that are no fields.
-/
namespace CommandContract

namespace StateAssignment

def fieldNames : List String := ["fromParam", "template", "value"]

def ofValue? (v : Value) : Option StateAssignment := do
  let ms ← Fields.ofValue? fieldNames v
  let parameter ← Fields.optional "fromParam" Value.string? ms
  let template ← Fields.optional "template" Value.string? ms
  let value ← Fields.optional "value" some ms
  some ⟨parameter, template, value⟩

def toValue (a : StateAssignment) : Value :=
  .object <|
    Fields.present "fromParam" .string a.parameter ++ Fields.present "template" .string a.template ++
      Fields.present "value" id a.value

end StateAssignment

namespace ConditionalClear

def fieldNames : List String := ["param", "equals", "when", "keys"]

def ofValue? (v : Value) : Option ConditionalClear := do
  let ms ← Fields.ofValue? fieldNames v
  let parameter ← Fields.optional "param" Value.string? ms
  let equals ← Fields.optional "equals" some ms
  let condition ← Fields.optional "when" Value.string? ms
  let keys ← Fields.withDefault "keys" [] (Fields.list? Value.string?) ms
  some ⟨parameter, equals, condition, keys⟩

def toValue (c : ConditionalClear) : Value :=
  .object <|
    Fields.present "param" .string c.parameter ++ Fields.present "equals" id c.equals ++
      Fields.present "when" .string c.condition ++ [("keys", Fields.strings c.keys)]

end ConditionalClear

namespace SideEffects

def fieldNames : List String := ["setState", "clearState", "clearStateIf", "builtin"]

def ofValue? (v : Value) : Option SideEffects := do
  let ms ← Fields.ofValue? fieldNames v
  let assignments ← Fields.withDefault "setState" [] (Fields.members? StateAssignment.ofValue?) ms
  let clears ← Fields.withDefault "clearState" [] (Fields.list? Value.string?) ms
  let conditionalClears ←
    Fields.withDefault "clearStateIf" [] (Fields.list? ConditionalClear.ofValue?) ms
  let builtin ← Fields.optional "builtin" Value.string? ms
  some ⟨assignments, clears, conditionalClears, builtin⟩

def toValue (e : SideEffects) : Value :=
  let assignments := e.assignments.map fun (k, a) => (k, a.toValue)
  .object <|
    (if assignments.isEmpty then [] else [("setState", .object assignments)]) ++
      Fields.nonEmpty "clearState" (e.clears.map .string) ++
      Fields.nonEmpty "clearStateIf" (e.conditionalClears.map ConditionalClear.toValue) ++
      Fields.present "builtin" .string e.builtin

end SideEffects

namespace NextRule

def fieldNames : List String := ["when", "parameters"]

/-- The template of one argument. -/
def template? (v : Value) : Option Value :=
  (Fields.ofValue? ["resolve"] v).bind (Fields.required "resolve" some)

def ofValue? (v : Value) : Option NextRule := do
  let ms ← Fields.ofValue? fieldNames v
  let condition ← Fields.optional "when" Value.string? ms
  let arguments ← Fields.withDefault "parameters" [] (Fields.members? template?) ms
  some ⟨condition, arguments⟩

def toValue (r : NextRule) : Value :=
  .object <|
    Fields.present "when" .string r.condition ++
      [("parameters", .object (r.arguments.map fun (k, v) => (k, .object [("resolve", v)])))]

end NextRule

namespace CommandSpec

def fieldNames : List String := [
  "name", "commandType", "parameters", "sideEffects", "next", "successOutput", "description",
  "syntax", "examples", "source", "methodName", "resolvedAbsolutePath"]

/-- One example, several, or none. -/
def examples? : Value → Option (List String)
  | .null => some []
  | .string s => some [s]
  | v => Fields.list? Value.string? v

def ofMembers? (ms : Members Value) : Option CommandSpec := do
  let name ← Fields.withDefault "name" "" Value.string? ms
  let kind ← Fields.withDefault "commandType" .custom
    (fun v => (Fields.choice? v).bind CommandKind.ofName?) ms
  let parameters ← Fields.withDefault "parameters" [] (Fields.members? ParameterSpec.ofValue?) ms
  let sideEffects ← Fields.optional "sideEffects" SideEffects.ofValue? ms
  let next ← Fields.optional "next" (Fields.members? NextRule.ofValue?) ms
  let successOutput ← Fields.optional "successOutput" Value.string? ms
  let description ← Fields.optional "description" Value.string? ms
  let usageLine ← Fields.optional "syntax" Value.string? ms
  let examples ← Fields.withDefault "examples" [] examples? ms
  let source ← Fields.optional "source" Value.string? ms
  let methodName ← Fields.optional "methodName" Value.string? ms
  let resolvedPath ← Fields.optional "resolvedAbsolutePath" Value.string? ms
  some {
    name, kind, parameters, sideEffects, next, successOutput, description, usageLine, examples,
    source, methodName, resolvedPath, extra := Fields.unknown fieldNames ms }

def ofValue? (v : Value) : Option CommandSpec := v.object?.bind ofMembers?

def toValue (c : CommandSpec) : Value :=
  let parameters := c.parameters.map fun (k, p) => (k, p.toValue)
  let next := c.next.map fun rules => rules.map fun (k, r) => (k, r.toValue)
  .object <|
    [("name", .string c.name), ("commandType", .string c.kind.name),
      ("parameters", .object parameters)] ++
      Fields.present "sideEffects" SideEffects.toValue c.sideEffects ++
      Fields.present "next" .object next ++
      Fields.present "successOutput" .string c.successOutput ++
      Fields.present "description" .string c.description ++
      Fields.present "syntax" .string c.usageLine ++
      Fields.nonEmpty "examples" (c.examples.map .string) ++
      Fields.present "source" .string c.source ++
      Fields.present "methodName" .string c.methodName ++
      Fields.present "resolvedAbsolutePath" .string c.resolvedPath ++ c.extra

end CommandSpec

end CommandContract
