import CommandContract.CommandLine.Options
import CommandContract.CommandLine.Schema
import CommandContract.Report

set_option autoImplicit false

/-!
# What a command line does

The configuration is found first, then the descriptors are loaded, then the subcommand does its
work. Most work is finished at once; a session and a request loop answer the lines of their input
one after the other.
-/
namespace CommandContract.CommandLine

/-- What a program finds around it. -/
structure Surroundings where
  tree : FileTree
  env : Members String
  /-- the output is shown on a terminal -/
  onTerminal : Bool

inductive Fault where
  | config (root : String) (cause : LoadError)
  | descriptors (root : String) (cause : LoadError)
  | trace (cause : FileError)
  | unknownFormat (format : String)
  | noEquals (pair : String)
  | noOperation
  | paramsNotJson

/-- The message of a cause, which says twice what an operating system reported. -/
def chainMessage (e : LoadError) : String :=
  match e with
  | .file cause => e.message ++ ": " ++ cause.message
  | _ => e.message

def Fault.message : Fault → String
  | config root cause => "loading engine config for " ++ root ++ ": " ++ chainMessage cause
  | descriptors root cause => "loading descriptors from " ++ root ++ ": " ++ chainMessage cause
  | trace cause => chainMessage (.file cause)
  | unknownFormat format => "unknown format '" ++ format ++ "': expected 'text' or 'json'"
  | noEquals pair => "--set expects KEY=VALUE, got '" ++ pair ++ "'"
  | noOperation => "rpc needs --op or --stdin"
  | paramsNotJson => "--params is not valid JSON: " ++ DescriptorFault.notJson.message

structure Outcome where
  exit : Nat
  output : String
  error : Option String
  tree : FileTree

/-- What answers one line of input. -/
structure Reply where
  session : Session
  output : String
  /-- no further line is read -/
  isLast : Bool

inductive Activity where
  | finished (outcome : Outcome)
  | lines (session : Session) (answer : Stamp → Session → String → Reply)

/-! ## Output -/

/-- Colors are used on a terminal, unless variables of the environment say otherwise. -/
def appearance (around : Surroundings) : Report.Appearance :=
  let isOn (key : String) : Option Bool := (Members.get? key around.env).map (· ≠ "0")
  let colored :=
    if isOn "CLICOLOR_FORCE" = some true then true
    else if (isOn "NO_COLOR").isSome then false
    else (isOn "CLICOLOR").getD true && around.onTerminal
  if colored then .colored else .plain

def indented (v : Value) : String := v.pretty ++ "\n"

def programName : String := "carapace"

def versionText : String := programName ++ " 0.1.0\n"

def helpText : String :=
  "Usage: " ++ programName ++ " [--root ROOT] [--config CONFIG] COMMAND\n\nCommands:\n" ++
    String.join (Subcommand.all.map fun c => "  " ++ c.name ++ "\n")

def refusalOutcome (tree : FileTree) : Refusal → Outcome
  | .usage => ⟨2, "", none, tree⟩
  | .help => ⟨0, helpText, none, tree⟩
  | .version => ⟨0, versionText, none, tree⟩

/-! ## Subcommands -/

def manifestText (look : Report.Appearance) (e : Engine) (format : String) : Except Fault String :=
  if format = "json" then .ok (indented e.manifest.toValue)
  else if format = "text" then .ok (Report.ofManifest look e.manifest ++ "\n")
  else .error (.unknownFormat format)

def parseOutcome (e : Engine) (s : Session) (input : String) : Outcome :=
  match e.parse s input with
  | .ok call => ⟨0, indented call.toValue, none, s.tree⟩
  | .error cause => ⟨1, indented (.object [("error", .string cause.message)]), none, s.tree⟩

/-- Seeds the state with the value behind an equals sign. -/
def seed (state : State) (pair : String) : Except Fault State :=
  match Text.cutAt? '=' pair.toList with
  | some (key, raw) =>
    .ok (state.set (String.ofList (Text.trim key)) (Argument.tokenValue raw))
  | none => .error (.noEquals pair)

def resultValue (r : CommandResult) (state : State) : Value :=
  .object [
    ("error", (r.error.map Value.string).getD .null), ("output", r.output), ("exit", .bool r.exit),
    ("chain", Fields.strings r.chain), ("state", state.snapshot)]

def runOutcome (e : Engine) (stamp : Stamp) (s : Session) (input : String)
    (assignments : List String) : Except Fault Outcome := do
  let state ← assignments.foldlM seed s.state
  let (s, r) := e.execute stamp { s with state } input
  .ok ⟨if r.isOk then 0 else 1, indented (resultValue r s.state), none, s.tree⟩

/-- Blank lines and comments are passed over. -/
def sessionReply (e : Engine) (look : Report.Appearance) (stamp : Stamp) (s : Session)
    (line : String) : Reply :=
  let input := line.trimBlank
  if input.isEmpty || input.toList.head? = some '#' then ⟨s, "", false⟩
  else
    let (s, r) := e.execute stamp s input
    let text := Report.ofResult look r
    ⟨s, if text.isEmpty then "" else text ++ "\n", r.exit⟩

def requestReply (e : Engine) (stamp : Stamp) (s : Session) (line : String) : Reply :=
  if line.isBlankText then ⟨s, "", false⟩
  else
    let (s, response) := Rpc.answer e stamp s line
    ⟨s, response.toValue.compact ++ "\n", response.exit⟩

def paramsOf : Option String → Except Fault Value
  | none => .ok .null
  | some text =>
    match Value.ofJson? text with
    | some v => .ok v
    | none => .error .paramsNotJson

def requestOutcome (e : Engine) (stamp : Stamp) (s : Session) (op : String)
    (params : Option String) : Except Fault Outcome := do
  let params ← paramsOf params
  let (s, response) := Rpc.handle e stamp s ⟨op, params, stamp.requestId⟩
  .ok ⟨if response.success then 0 else 1, indented response.toValue, none, s.tree⟩

def traceOutcome (tree : FileTree) (path : String) (last : Nat) : Except Fault Outcome :=
  match Trace.tail tree path last with
  | .ok lines => .ok ⟨0, String.join (lines.map (· ++ "\n")), none, tree⟩
  | .error cause => .error (.trace cause)

/-! ## All together -/

def work (look : Report.Appearance) (e : Engine) (stamp : Stamp) (s : Session) :
    Task → Except Fault Activity
  | .manifest format => do
    let text ← manifestText look e format
    .ok (.finished ⟨0, text, none, s.tree⟩)
  | .parse input => .ok (.finished (parseOutcome e s input))
  | .run input assignments => (runOutcome e stamp s input assignments).map .finished
  | .session => .ok (.lines s (sessionReply e look))
  | .rpc options =>
    if options.readsInput then .ok (.lines s (requestReply e))
    else
      match options.op with
      | some op => (requestOutcome e stamp s op options.params).map .finished
      | none => .error .noOperation

def engineOf (tree : FileTree) (root : String) (config : Config) : Except Fault Engine :=
  match Engine.load tree root config with
  | .ok e => .ok e
  | .error cause => .error (.descriptors root cause)

/-- The activity of options. The vocabulary and the trace need no descriptors. -/
def activity (around : Surroundings) (stamp : Stamp) (o : Options) : Except Fault Activity :=
  match Config.discover around.tree around.env o.root o.config with
  | .error cause => .error (.config o.root cause)
  | .ok config =>
    match o.action with
    | .schema => .ok (.finished ⟨0, indented vocabulary, none, around.tree⟩)
    | .trace last => (traceOutcome around.tree (config.tracePath o.root) last).map .finished
    | .task t => do
      let e ← engineOf around.tree o.root config
      work (appearance around) e stamp ⟨around.tree, e.newState⟩ t

/-- What a list of arguments starts; a fault is an outcome too. -/
def start (around : Surroundings) (stamp : Stamp) (args : List String) : Activity :=
  match Options.ofArgs args with
  | .error refusal => .finished (refusalOutcome around.tree refusal)
  | .ok options =>
    match activity around stamp options with
    | .ok a => a
    | .error fault => .finished ⟨1, "", some fault.message, around.tree⟩

/-- Answers lines until one is the last. -/
def answerLines (answer : Stamp → Session → String → Reply) (stamps : Nat → Stamp) :
    Nat → Session → List String → Outcome
  | _, s, [] => ⟨0, "", none, s.tree⟩
  | n, s, line :: rest =>
    let reply := answer (stamps n) s line
    if reply.isLast then ⟨0, reply.output, none, reply.session.tree⟩
    else
      let after := answerLines answer stamps (n + 1) reply.session rest
      { after with output := reply.output ++ after.output }

/-- The outcome for a whole input. -/
def run (around : Surroundings) (stamps : Nat → Stamp) (args : List String) (input : String) :
    Outcome :=
  match start around (stamps 0) args with
  | .finished outcome => outcome
  | .lines s answer => answerLines answer stamps 1 s (Text.linesOf input)

end CommandContract.CommandLine
