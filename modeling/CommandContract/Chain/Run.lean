import CommandContract.Chain.Effects
import CommandContract.Chain.Next
import CommandContract.Engine.Basic
import CommandContract.Trace

set_option autoImplicit false

/-!
# Running a chain

A command is prepared, executed, followed by its side effects, and then perhaps by another command.
`Chain.step` does this for one command and says what follows; `Chain.run` goes on until nothing
follows, something fails, or the chain is as long as it may be.
-/
namespace CommandContract

/-- A command that ran. -/
structure ChainLink where
  name : String
  args : Members Value
  output : Value

def ChainLink.toValue (l : ChainLink) : Value :=
  .object [("name", .string l.name), ("args", .object l.args), ("output", l.output)]

inductive ChainFailure where
  | depthExceeded (command : String) (depth max : Nat)
  | unknownCommand (name : String)
  | validation (cause : ValidationError)
  | construction (fault : ConstructionFault)
  | noHandler (command : String)
  /-- with the command that started the chain, if that is another link -/
  | handler (command message : String) (origin : Option String)
  | template (cause : TemplateError)

def ChainFailure.message : ChainFailure → String
  | depthExceeded command depth max =>
    "Chain depth exceeded: '" ++ command ++ "' would run at depth " ++ toString depth ++ " (max " ++
      toString max ++ ")"
  | unknownCommand name => unknownCommandMessage name
  | validation cause => cause.message
  | construction fault => fault.message
  | noHandler command => "No handler registered for command '" ++ command ++ "'"
  | handler command message none => "Command '" ++ command ++ "' failed: " ++ message
  | handler command message (some origin) =>
    "Command '" ++ command ++ "' failed: " ++ message ++ " (chain started by '" ++ origin ++ "')"
  | template cause => cause.message

namespace Chain

/-- A chain so far. -/
structure Progress where
  tree : FileTree
  state : State
  /-- the commands that ran, in order -/
  chain : List String
  exit : Bool
  origin : Option ChainLink
  previous : Option ChainLink
  /-- what was recorded, in order -/
  events : List TraceEvent

def Progress.start (s : Session) : Progress := ⟨s.tree, s.state, [], false, none, none, []⟩

inductive Step where
  | next (call : Call)
  | done (output : Value)
  | failed (failure : ChainFailure)

/-- What conditions and templates of rules see. -/
def context (origin previous link : ChainLink) : Value :=
  .object [
    ("input", .object link.args), ("output", link.output), ("original", origin.toValue),
    ("previous", previous.toValue), ("originalCommand", .string origin.name),
    ("previousCommand", .string previous.name)]

/-- Records an event, if runs are to be recorded. -/
def Progress.record (e : Engine) (stamp : Stamp) (p : Progress) (event : TraceEvent) : Progress :=
  if e.config.trace.enabled then
    let line := event.line (stamp.eventId p.events.length) stamp.time
    { p with
      tree := Trace.append p.tree (e.config.tracePath e.manifest.root) line
      events := p.events ++ [event] }
  else p

def Progress.event (p : Progress) (c : CommandSpec) (depth : Nat) (args : Members Value)
    (output : Value) (error : Option String) : TraceEvent :=
  ⟨c.name, ((p.origin.map (·.name)).getD c.name), depth, args, output, error⟩

/-- The arguments that a command runs with. An argument that a rule gives without need makes the
rule faulty. -/
def argumentsOf (p : Progress) (c : CommandSpec) (given : Members Value) :
    Except ChainFailure (Members Value) :=
  match Validation.prepare p.tree p.state c.parameters given with
  | .ok args => .ok args
  | .error (.unknownParameter key) =>
    if p.chain.isEmpty then .error (.validation (.unknownParameter key))
    else .error (.construction (.unknownParameter key))
  | .error cause => .error (.validation cause)

/-- Lets the handler of a command answer, which may change files. -/
def execute (e : Engine) (p : Progress) (c : CommandSpec) (args : Members Value) :
    Progress × Except ChainFailure Value :=
  match e.registry.get? c.name with
  | none => (p, .error (.noHandler c.name))
  | some h =>
    let (tree, answer) := h.run p.tree ⟨c, args, e.manifest, p.state⟩
    let failure (message : String) : ChainFailure := .handler c.name message (p.origin.map (·.name))
    ({ p with tree }, answer.mapError failure)

/-- An output of `null` gives way to the declared text, if there is one. -/
def finalOutput (c : CommandSpec) (args : Members Value) (output : Value) :
    Except TemplateError Value :=
  match c.successOutput, output with
  | some template, .null => (Template.render template (effectContext args .null)).map .string
  | _, output => .ok output

/-- The changes that a command declares. -/
def changeOf (c : CommandSpec) (args : Members Value) (output : Value) :
    Except TemplateError StateChange :=
  match c.sideEffects with
  | some effects => effects.change args output
  | none => .ok ⟨[], []⟩

def signalsExit (c : CommandSpec) : Bool := c.sideEffects.any SideEffects.signalsExit

/-- Chooses what follows a command that is complete. -/
def follow (e : Engine) (p : Progress) (c : CommandSpec) (link : ChainLink) : Progress × Step :=
  let origin := p.origin.getD link
  let previous := p.previous.getD link
  match next e.manifest c (context origin previous link) with
  | .error fault => (p, .failed (.construction fault))
  | .ok none => (p, .done link.output)
  | .ok (some call) =>
    ({ p with origin := some origin, previous := some link }, .next call)

/-- Final output, side effects and record of a command whose handler answered. -/
def complete (e : Engine) (stamp : Stamp) (p : Progress) (c : CommandSpec) (args : Members Value)
    (answer : Value) : Progress × Step :=
  match finalOutput c args answer with
  | .error cause => (p, .failed (.template cause))
  | .ok output =>
    match changeOf c args output with
    | .error cause => (p, .failed (.template cause))
    | .ok change =>
      let p := { p with state := change.apply p.state, exit := p.exit || signalsExit c }
      let p := p.record e stamp (p.event c p.chain.length args output none)
      follow e p c ⟨c.name, args, output⟩

def step (e : Engine) (stamp : Stamp) (p : Progress) (call : Call) : Progress × Step :=
  match e.manifest.get? call.name with
  | none => (p, .failed (.unknownCommand call.name))
  | some c =>
    match argumentsOf p c call.args with
    | .error failure => (p, .failed failure)
    | .ok args =>
      match execute e p c args with
      | (p, .error failure) =>
        let event := p.event c (p.chain.length + 1) args .null (some failure.message)
        (p.record e stamp event, .failed failure)
      | (p, .ok answer) => complete e stamp { p with chain := p.chain ++ [c.name] } c args answer

/-- Goes on with a number of commands that may still run. -/
def runFrom (e : Engine) (stamp : Stamp) :
    Nat → Progress → Call → Progress × Except ChainFailure Value
  | 0, p, call =>
    (p, .error (.depthExceeded call.name (p.chain.length + 1) e.config.engine.maxChainDepth))
  | n + 1, p, call =>
    match step e stamp p call with
    | (p, .next call) => runFrom e stamp n p call
    | (p, .done output) => (p, .ok output)
    | (p, .failed failure) => (p, .error failure)

def run (e : Engine) (stamp : Stamp) (s : Session) (call : Call) :
    Progress × Except ChainFailure Value :=
  runFrom e stamp e.config.engine.maxChainDepth (Progress.start s) call

end Chain

end CommandContract
