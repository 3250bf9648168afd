import CommandContract.Lookup
import CommandContract.Manifest.Basic
import CommandContract.Result

set_option autoImplicit false

/-!
# Reports for a terminal

Results and manifests as text that stays short: runs of blanks become one, long lines are cut, and
of many items only the first are shown.
-/
namespace CommandContract.Report

inductive Appearance where
  | plain
  | colored
  deriving DecidableEq, Repr

inductive Paint where
  | alarm
  | strong
  | kind
  | faint
  deriving DecidableEq, Repr

/-- The control sequence that begins a paint. -/
def Paint.opening : Paint → List Char
  | alarm => "\x1b[1;31m".toList
  | strong => "\x1b[1m".toList
  | kind => "\x1b[36m".toList
  | faint => "\x1b[2m".toList

def closing : List Char := "\x1b[0m".toList

/-- Begins the paint again behind every end of paint inside a text. -/
def reopen (opening : List Char) : List Char → List Char
  | '\x1b' :: '[' :: '0' :: 'm' :: cs => closing ++ opening ++ reopen opening cs
  | c :: cs => c :: reopen opening cs
  | [] => []

def paint (appearance : Appearance) (p : Paint) (s : String) : String :=
  match appearance with
  | .plain => s
  | .colored => String.ofList (p.opening ++ reopen p.opening s.toList ++ closing)

/-- One line of at most `width` characters, marked if something was cut off. -/
def compactLine (width : Nat) (s : String) : String :=
  let words := (Text.words s.toList).map String.ofList
  let line := (Text.joinWith " " words).toList
  String.ofList (line.take width) ++ (if line.length ≤ width then "" else "...")

/-- The first messages, and how many more there are. -/
def preview (items width : Nat) (messages : List String) : String :=
  let shown := Text.joinWith " | " ((messages.take items).map (compactLine width))
  if messages.length ≤ items then shown
  else shown ++ " (+" ++ toString (messages.length - items) ++ " more)"

/-- The output, or the error and the commands that ran before it. -/
def ofResult (appearance : Appearance) (r : CommandResult) : String :=
  match r.error with
  | none => r.output.text
  | some error =>
    let headline := paint appearance .alarm "error:" ++ " " ++ error
    if r.chain.isEmpty then headline
    else headline ++ "\n" ++ paint appearance .faint ("  ran: " ++ preview 5 40 r.chain)

def commandLine (appearance : Appearance) (c : CommandSpec) : String :=
  "  " ++ paint appearance .kind (Text.padRight 12 c.kind.name) ++ " " ++ c.usage ++ " " ++
    paint appearance .faint ((c.description.map (compactLine 72)).getD "")

/-- A headline, then a line for every command. -/
def ofManifest (appearance : Appearance) (m : Manifest) : String :=
  let headline := paint appearance .strong m.name ++ " v" ++ m.version ++ " (" ++
    toString m.commands.length ++ " commands)"
  Text.joinWith "\n" (headline :: m.commands.map fun (_, c) => commandLine appearance c)

end CommandContract.Report
