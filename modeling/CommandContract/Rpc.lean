import CommandContract.Engine.Execute
import CommandContract.Json.Reader

set_option autoImplicit false

/-!
# Requests and responses

Hosts that drive an engine from outside send requests as JSON and get responses with a receipt:
the operation, the time, and digests of the parameters and of the result. Of the operations only
`run` changes the session.
-/
namespace CommandContract.Rpc

inductive Operation where
  | manifest
  | parse
  | validate
  | run
  | state
  deriving DecidableEq, Repr

namespace Operation

def all : List Operation := [manifest, parse, validate, run, state]

def name : Operation → String
  | manifest => "manifest"
  | parse => "parse"
  | validate => "validate"
  | run => "run"
  | state => "state"

def ofName? (name : String) : Option Operation := all.find? (·.name = name)

end Operation

structure Request where
  op : String
  params : Value
  id : String

inductive Fault where
  | parse (cause : LineError)
  | unknownCommand (name : String)
  | validation (cause : ValidationError)
  | missingParameter (key : String)
  | unknownOperation (op : String)
  | commandFailed (message : String)
  | invalidRequest

def Fault.code : Fault → String
  | parse _ => "parse_error"
  | unknownCommand _ => "parse_error"
  | validation _ => "validation_error"
  | missingParameter _ => "invalid_params"
  | unknownOperation _ => "unknown_op"
  | commandFailed _ => "command_failed"
  | invalidRequest => "invalid_request"

def Fault.message : Fault → String
  | parse cause => cause.message
  | unknownCommand name => unknownCommandMessage name
  | validation cause => cause.message
  | missingParameter key => "Missing string param '" ++ key ++ "'"
  | unknownOperation op =>
    "Unknown op '" ++ op ++ "'; expected one of: " ++
      Text.joinWith ", " (Operation.all.map Operation.name)
  | commandFailed message => message
  | invalidRequest => "the text is not a valid request"

structure Receipt where
  op : String
  timestamp : String
  inputsHash : String
  outputsHash : String
  deriving DecidableEq, Repr

structure Response where
  id : String
  receipt : Receipt
  result : Except Fault Value
  /-- a side effect asked the host to end the session -/
  exit : Bool

/-! ## Reading requests -/

namespace Request

def fieldNames : List String := ["op", "params", "id"]

def ofMembers? (freshId : String) (ms : Members Value) : Option Request := do
  let op ← Fields.required "op" Value.string? ms
  let params ← Fields.withDefault "params" .null some ms
  let id ← Fields.withDefault "id" freshId Value.string? ms
  some ⟨op, params, id⟩

def ofValue? (freshId : String) (v : Value) : Option Request :=
  (Fields.ofValue? fieldNames v).bind (ofMembers? freshId)

/-- No field is given twice. -/
def fieldsOnce (pairs : List (String × Value)) : Bool :=
  fieldNames.all fun name => (pairs.filter (·.1 = name)).length ≤ 1

/-- The request that a text spells as an object of fields, or as an array of them in order. -/
def ofText? (freshId text : String) : Option Request :=
  if Json.isObjectText text.toList then do
    let fields ← Json.readFieldsOf fieldNames text.toList
    if fieldsOnce fields then ofMembers? freshId fields else none
  else (Value.ofJson? text).bind (ofValue? freshId)

end Request

/-! ## Answering -/

def textParameter (params : Value) (key : String) : Except Fault String :=
  match (params.member? key).bind Value.string? with
  | some s => .ok s
  | none => .error (.missingParameter key)

/-- The arguments among the parameters; none if they are no object. -/
def argsOf (params : Value) : Members Value :=
  ((params.member? "args").bind Value.object?).getD []

def parse (e : Engine) (s : Session) (params : Value) : Except Fault Value := do
  let line ← textParameter params "input"
  match e.parse s line with
  | .ok call => .ok call.toValue
  | .error cause => .error (.parse cause)

def validate (e : Engine) (s : Session) (params : Value) : Except Fault Value := do
  let command ← textParameter params "command"
  match e.validate s.tree command (argsOf params) with
  | .ok args => .ok (.object args)
  | .error (.unknownCommand name) => .error (.unknownCommand name)
  | .error (.validation cause) => .error (.validation cause)

/-- What a run gives back: its output and its chain. -/
def resultOf (r : CommandResult) : Except Fault Value :=
  match r.error with
  | some message => .error (.commandFailed message)
  | none => .ok (.object [("output", r.output), ("chain", Fields.strings r.chain)])

/-- Runs a line, or a named command with arguments. -/
def run (e : Engine) (stamp : Stamp) (s : Session) (params : Value) :
    Session × Except Fault Value × Bool :=
  match textParameter params "input", textParameter params "command" with
  | .ok line, _ =>
    let (s, r) := e.execute stamp s line
    (s, resultOf r, r.exit)
  | .error _, .ok command =>
    let (s, r) := e.run stamp s ⟨command, argsOf params⟩
    (s, resultOf r, r.exit)
  | .error _, .error fault => (s, .error fault, false)

def dispatch (e : Engine) (stamp : Stamp) (s : Session) (r : Request) :
    Session × Except Fault Value × Bool :=
  match Operation.ofName? r.op with
  | some .manifest => (s, .ok e.manifest.toValue, false)
  | some .state => (s, .ok s.state.snapshot, false)
  | some .parse => (s, parse e s r.params, false)
  | some .validate => (s, validate e s r.params, false)
  | some .run => run e stamp s r.params
  | none => (s, .error (.unknownOperation r.op), false)

def digest (v : Value) : String := Sha256.ofText v.compact

def outputsHash : Except Fault Value → String
  | .ok v => digest v
  | .error _ => Sha256.ofText "error"

def respond (time : String) (r : Request) (result : Except Fault Value) (exit : Bool) : Response :=
  ⟨r.id, ⟨r.op, time, digest r.params, outputsHash result⟩, result, exit⟩

def handle (e : Engine) (stamp : Stamp) (s : Session) (r : Request) : Session × Response :=
  let (s, result, exit) := dispatch e stamp s r
  (s, respond stamp.time r result exit)

/-- The response to a text that is no request. -/
def refuse (stamp : Stamp) : Response :=
  respond stamp.time ⟨"", .null, stamp.requestId⟩ (.error .invalidRequest) false

/-- Answers a text. -/
def answer (e : Engine) (stamp : Stamp) (s : Session) (text : String) : Session × Response :=
  match Request.ofText? stamp.requestId text with
  | some r => handle e stamp s r
  | none => (s, refuse stamp)

/-! ## Writing responses -/

def Receipt.toValue (r : Receipt) : Value :=
  .object [
    ("op", .string r.op), ("timestamp", .string r.timestamp), ("inputs_hash", .string r.inputsHash),
    ("outputs_hash", .string r.outputsHash)]

namespace Response

def success (r : Response) : Bool :=
  match r.result with
  | .ok _ => true
  | .error _ => false

def toValue (r : Response) : Value :=
  .object <|
    [("id", .string r.id), ("success", .bool r.success), ("receipt", r.receipt.toValue)] ++
      (match r.result with
        | .ok v => [("result", v)]
        | .error fault =>
          [("error", .object [("code", .string fault.code), ("message", .string fault.message)])]) ++
      [("exit", .bool r.exit)]

end Response

end CommandContract.Rpc
