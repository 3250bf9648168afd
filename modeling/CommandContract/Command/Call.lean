import CommandContract.Argument.Split
import CommandContract.Argument.Token
import CommandContract.Manifest.Basic
import CommandContract.Parameter.Validation
import CommandContract.Template

set_option autoImplicit false

/-!
# Calls

A line names a command and gives its arguments in one of three ways: as an object literal, as a
list of positional and named arguments, or not at all. A lone value that is no object goes through
the transform of the only required parameter, if that has one.
-/
namespace CommandContract

structure Call where
  name : String
  args : Members Value

inductive LineError where
  | unknownCommand (name : String)
  | empty
  | unclosed (line : String)
  | invalidName (name : String)
  | splitArguments (command : String) (cause : Argument.SplitError)
  | transform (command : String) (cause : TemplateError)
  | unknownParameter (command parameter : String)
  | tooManyPositional (command value : String)
  | validation (cause : ValidationError)

def unknownCommandMessage (name : String) : String := "Unknown command: '" ++ name ++ "'"

def LineError.message : LineError → String
  | unknownCommand name => unknownCommandMessage name
  | empty => "Invalid command syntax: empty input"
  | unclosed line => "Invalid command syntax: '" ++ line ++ "' is missing a closing parenthesis"
  | invalidName name => "Invalid command syntax: '" ++ name ++ "' is not a valid command name"
  | splitArguments command cause => "Malformed arguments for '" ++ command ++ "': " ++ cause.message
  | transform command cause => "Malformed arguments for '" ++ command ++ "': " ++ cause.message
  | unknownParameter command parameter =>
    "Unknown parameter '" ++ parameter ++ "' for command '" ++ command ++ "'"
  | tooManyPositional command value =>
    "Too many positional arguments for '" ++ command ++ "': unexpected value " ++ value ++
      " after all required parameters were filled"
  | validation cause => cause.message

namespace Call

def toValue (c : Call) : Value := .object [("name", .string c.name), ("args", .object c.args)]

/-! ## Names -/

def isNameStart (c : Char) : Bool := c.isAlpha || c = '_'

def isNameChar (c : Char) : Bool := c.isAlphanum || c = '_' || c = '-' || c = '.'

def isSegment : List Char → Bool
  | [] => false
  | c :: cs => isNameStart c && cs.all isNameChar

/-- Segments between slashes. -/
def isName (cs : List Char) : Bool := (Text.splitOn '/' cs).all isSegment

/-- The form of a key in front of an equals sign. -/
def isKey : List Char → Bool
  | [] => false
  | c :: cs =>
    (c.isAlpha || c = '_' || c = '$') &&
      cs.all fun c => c.isAlphanum || c = '_' || c = '$' || c = '-'

def command (m : Manifest) (name : List Char) : Except LineError CommandSpec :=
  if !isName name then .error (.invalidName (String.ofList name))
  else
    match m.get? (String.ofList name) with
    | some spec => .ok spec
    | none => .error (.unknownCommand (String.ofList name))

/-! ## Positional and named arguments -/

inductive Argument where
  | positional (token : List Char)
  | named (key raw : List Char)

def Argument.ofToken (token : List Char) : Argument :=
  match CommandContract.Argument.cutAtEquals? token with
  | some (before, raw) =>
    let key := Text.trim before
    if isKey key then .named key raw else .positional token
  | none => .positional token

/-- The named arguments, each under its declared name. -/
def namedArguments (spec : CommandSpec) (arguments : List Argument) :
    Except LineError (Members Value) := do
  let pairs ← arguments.filterMapM fun a =>
    match a with
    | .positional _ => .ok none
    | .named key raw =>
      match spec.parameters.find? (String.ofList key) with
      | some (declared, _) => .ok (some (declared, CommandContract.Argument.tokenValue raw))
      | none => .error (.unknownParameter spec.name (String.ofList key))
  .ok (Members.ofPairs pairs)

/-- Gives the positional tokens to the free parameters, in order. -/
def fillSlots (command : String) : List String → List (List Char) → Except LineError (Members Value)
  | _, [] => .ok []
  | [], token :: _ => .error (.tooManyPositional command (String.ofList token))
  | slot :: slots, token :: tokens =>
    (fillSlots command slots tokens).map
      ((slot, CommandContract.Argument.tokenValue token) :: ·)

def positionalTokens (arguments : List Argument) : List (List Char) :=
  arguments.filterMap fun a =>
    match a with
    | .positional token => some token
    | .named _ _ => none

def listArguments (spec : CommandSpec) (body : List Char) : Except LineError (Members Value) :=
  match CommandContract.Argument.split ',' body with
  | .error cause => .error (.splitArguments spec.name cause)
  | .ok pieces => do
    let tokens := (pieces.map Text.trim).filter (!·.isEmpty)
    let arguments := tokens.map Argument.ofToken
    let named ← namedArguments spec arguments
    let free := (spec.parameters.required.map (·.1)).filter fun name => !Members.has name named
    let filled ← fillSlots spec.name free (positionalTokens arguments)
    .ok (Members.ofPairs (filled ++ named))

/-! ## One literal -/

def orTransformError {α : Type} (command : String) :
    Except TemplateError α → Except LineError α
  | .ok a => .ok a
  | .error cause => .error (.transform command cause)

/-- The arguments that a transform makes of the normal form of a value. -/
def transformed (spec : CommandSpec) (name : String) (t : Transform) (normal : Value) :
    Except LineError (Members Value) := do
  let context := Value.object
    [("value", normal), ("parameter", .string name), ("command", .string spec.name)]
  let chosen ← match t.condition with
    | some c => orTransformError spec.name (Condition.check c context)
    | none => .ok true
  let result ← match (if chosen then some t.chosen else t.otherwise) with
    | some template => orTransformError spec.name (Template.renderValue context template)
    | none => .ok normal
  .ok (match result with
    | .object members => members
    | v => [(name, v)])

/-- The arguments that a lone value stands for, if the command has a transform for it. -/
def applyTransform (tree : FileTree) (spec : CommandSpec) (v : Value) :
    Except LineError (Option (Members Value)) :=
  match spec.parameters.required with
  | [(name, p)] =>
    match p.transform with
    | none => .ok none
    | some t =>
      match Validation.normalizeValue tree name p v with
      | .error cause => .error (.validation cause)
      | .ok normal => (transformed spec name t normal).map some
  | _ => .ok none

/-- The arguments of a body that is one literal; nothing if it is to be read as a list. -/
def literalArguments (tree : FileTree) (spec : CommandSpec) (body : List Char) :
    Except LineError (Option (Members Value)) :=
  match Literal.parseJsonFirst (String.ofList body) with
  | .error _ => .ok none
  | .ok (.object members) => .ok (some members)
  | .ok v => applyTransform tree spec v

/-! ## Lines -/

def bodyArguments (tree : FileTree) (spec : CommandSpec) (body : List Char) :
    Except LineError (Members Value) :=
  if body.isEmpty then .ok []
  else do
    match ← literalArguments tree spec body with
    | some args => .ok args
    | none => listArguments spec body

/-- Name and raw arguments of a line. -/
def readLine (tree : FileTree) (m : Manifest) (line : String) : Except LineError Call :=
  let cs := Text.trim line.toList
  if cs.isEmpty then .error .empty
  else
    match Text.cutAt? '(' cs with
    | none => do
      let spec ← command m cs
      .ok ⟨spec.name, []⟩
    | some (before, after) =>
      if after.getLast? ≠ some ')' then .error (.unclosed (String.ofList cs))
      else do
        let spec ← command m (Text.trim before)
        let args ← bodyArguments tree spec (Text.trim after.dropLast)
        .ok ⟨spec.name, args⟩

/-- A line with its arguments filled from the state and validated. -/
def parse (tree : FileTree) (m : Manifest) (state : State) (line : String) :
    Except LineError Call := do
  let call ← readLine tree m line
  match m.get? call.name with
  | none => .error (.unknownCommand call.name)
  | some spec =>
    match Validation.prepare tree state spec.parameters call.args with
    | .ok args => .ok ⟨call.name, args⟩
    | .error cause => .error (.validation cause)

end Call

end CommandContract
