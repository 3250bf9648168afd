import CommandContract.Number.Decimal
import CommandContract.Json.Value
import CommandContract.Text.Pieces

set_option autoImplicit false

/-!
# Options of the command line

Two levels of arguments: those of the program, up to the name of a subcommand, and those of the
subcommand, where the options of the program may stand as well. An option takes the argument behind
it or what follows an equals sign; behind `--` every argument is positional.
-/
namespace CommandContract.CommandLine

structure RpcOptions where
  op : Option String
  params : Option String
  readsInput : Bool
  deriving DecidableEq, Repr

/-- Work that needs the descriptors. -/
inductive Task where
  | manifest (format : String)
  | parse (input : String)
  | run (input : String) (assignments : List String)
  | session
  | rpc (options : RpcOptions)
  deriving DecidableEq, Repr

inductive Action where
  | schema
  | trace (last : Nat)
  | task (t : Task)
  deriving DecidableEq, Repr

structure Options where
  root : String
  config : Option String
  action : Action
  deriving DecidableEq, Repr

/-- Why arguments give no options. -/
inductive Refusal where
  | usage
  | help
  | version
  deriving DecidableEq, Repr

/-! ## Levels -/

structure Level where
  /-- options with a value -/
  valued : List String
  /-- the options among them that may be repeated -/
  repeatable : List String
  flags : List String
  hasVersion : Bool
  /-- the first positional argument begins another level -/
  isOuter : Bool
  positionals : Nat

/-- What was given on a level. -/
structure Given where
  values : List (String × String)
  flags : List String
  positionals : List String

namespace Given

def none : Given := ⟨[], [], []⟩

/-- All values of an option, in order. -/
def all (g : Given) (name : String) : List String :=
  g.values.filterMap fun v => if v.1 = name then some v.2 else Option.none

def value? (g : Given) (name : String) : Option String := (g.all name).head?

end Given

inductive Kind where
  | escape
  | long (name : String) (attached : Option String)
  | short (letters : List Char)
  | positional
  deriving DecidableEq, Repr

def kindOf (arg : String) : Kind :=
  match arg.toList with
  | ['-', '-'] => .escape
  | '-' :: '-' :: cs =>
    match Text.cutAt? '=' cs with
    | some (name, value) => .long (String.ofList name) (some (String.ofList value))
    | none => .long (String.ofList cs) none
  | '-' :: c :: cs => .short (c :: cs)
  | _ => .positional

/-- A number of events: digits, perhaps behind a plus, within 64 bits. -/
def count? (text : String) : Option Nat :=
  let cs := text.toList
  if cs.head? = some '-' then none
  else ((Decimal.integer? cs).filter Number.isUnsigned).map Int.toNat

/-- Paths are not empty, and numbers are numbers. -/
def isValid (name value : String) : Bool :=
  if name = "root" || name = "config" then value ≠ ""
  else if name = "last" then (count? value).isSome
  else true

def addValue (level : Level) (g : Given) (name value : String) : Except Refusal Given :=
  if !level.valued.contains name || !isValid name value then .error .usage
  else if (g.value? name).isSome && !level.repeatable.contains name then .error .usage
  else .ok { g with values := g.values ++ [(name, value)] }

def addFlag (level : Level) (g : Given) (name : String) : Except Refusal Given :=
  if name = "help" then .error .help
  else if name = "version" && level.hasVersion then .error .version
  else if !level.flags.contains name || g.flags.contains name then .error .usage
  else .ok { g with flags := g.flags ++ [name] }

def addPositional (level : Level) (g : Given) (arg : String) : Except Refusal Given :=
  if g.positionals.length < level.positionals then
    .ok { g with positionals := g.positionals ++ [arg] }
  else .error .usage

def shortRefusal (level : Level) : List Char → Refusal
  | 'h' :: _ => .help
  | 'V' :: _ => if level.hasVersion then .version else .usage
  | _ => .usage

/-- Reads the arguments of a level. On the outer level the rest begins with the name of a
subcommand. -/
def scan (level : Level) (g : Given) : List String → Except Refusal (Given × List String)
  | [] => .ok (g, [])
  | [arg] =>
    match kindOf arg with
    | .escape => .ok (g, [])
    | .long name (some value) => (addValue level g name value).map (·, [])
    | .long name none => (addFlag level g name).map (·, [])
    | .short letters => .error (shortRefusal level letters)
    | .positional =>
      if level.isOuter then .ok (g, [arg]) else (addPositional level g arg).map (·, [])
  | arg :: next :: rest =>
    match kindOf arg with
    | .escape =>
      ((next :: rest).foldlM (addPositional level) g).map (·, [])
    | .long name (some value) => do
      let g ← addValue level g name value
      scan level g (next :: rest)
    | .long name none =>
      if level.valued.contains name then
        if kindOf next = .positional then do
          let g ← addValue level g name next
          scan level g rest
        else .error .usage
      else do
        let g ← addFlag level g name
        scan level g (next :: rest)
    | .short letters => .error (shortRefusal level letters)
    | .positional =>
      if level.isOuter then .ok (g, arg :: next :: rest)
      else do
        let g ← addPositional level g arg
        scan level g (next :: rest)

/-! ## Subcommands -/

def outer : Level := ⟨["root", "config"], [], [], true, true, 0⟩

inductive Subcommand where
  | manifest
  | parse
  | run
  | session
  | rpc
  | schema
  | trace
  deriving DecidableEq, Repr

namespace Subcommand

def all : List Subcommand := [manifest, parse, run, session, rpc, schema, trace]

def name : Subcommand → String
  | manifest => "manifest"
  | parse => "parse"
  | run => "run"
  | session => "session"
  | rpc => "rpc"
  | schema => "schema"
  | trace => "trace"

def ofName? (name : String) : Option Subcommand := all.find? (·.name = name)

/-- The options of a subcommand, those of the program included. -/
def level (c : Subcommand) : Level :=
  let own : List String :=
    match c with
    | manifest => ["format"]
    | run => ["set"]
    | rpc => ["op", "params"]
    | trace => ["last"]
    | _ => []
  { valued := own ++ outer.valued
    repeatable := ["set"]
    flags := if c = rpc then ["stdin"] else []
    hasVersion := false
    isOuter := false
    positionals := if c = parse || c = run then 1 else 0 }

/-- An operation and requests from the input exclude each other, and parameters need one of them. -/
def rpcAction (g : Given) : Except Refusal Action :=
  let options : RpcOptions := ⟨g.value? "op", g.value? "params", g.flags.contains "stdin"⟩
  if options.op.isSome && options.readsInput then .error .usage
  else if options.params.isSome && options.op.isNone && !options.readsInput then .error .usage
  else .ok (.task (.rpc options))

def action (c : Subcommand) (g : Given) : Except Refusal Action :=
  match c, g.positionals with
  | manifest, _ => .ok (.task (.manifest ((g.value? "format").getD "text")))
  | parse, [input] => .ok (.task (.parse input))
  | parse, _ => .error .usage
  | run, [input] => .ok (.task (.run input (g.all "set")))
  | run, _ => .error .usage
  | session, _ => .ok (.task .session)
  | rpc, _ => rpcAction g
  | schema, _ => .ok .schema
  | trace, _ => .ok (.trace (((g.value? "last").bind count?).getD 20))

end Subcommand

/-- The refusal of a request for help on subcommands: help if they exist. -/
def helpRefusal : List String → Refusal
  | [] => .help
  | [name] => if name = "help" || (Subcommand.ofName? name).isSome then .help else .usage
  | _ => .usage

/-- Options of the subcommand win over those in front of it. -/
def Options.ofArgs (args : List String) : Except Refusal Options := do
  let (first, rest) ← scan outer Given.none args
  match rest with
  | [] => .error .usage
  | name :: rest =>
    match Subcommand.ofName? name with
    | none => .error (if name = "help" then helpRefusal rest else .usage)
    | some c => do
      let (g, _) ← scan c.level Given.none rest
      let action ← c.action g
      .ok {
        root := (g.value? "root" <|> first.value? "root").getD "."
        config := g.value? "config" <|> first.value? "config"
        action }

end CommandContract.CommandLine
