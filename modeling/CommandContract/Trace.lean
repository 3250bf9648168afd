import CommandContract.FileTree
import CommandContract.Json.Fields
import CommandContract.Json.Printer
import CommandContract.Redaction

set_option autoImplicit false

/-!
# The execution trace

One event for every command that ran, and one for a handler that failed. An event is redacted
before it becomes a line of the trace file.
-/
namespace CommandContract

/-- The time of a run and fresh names, given from outside: the first names the request, the others
what is recorded while it is answered. -/
structure Stamp where
  time : String
  id : Nat → String

def Stamp.requestId (s : Stamp) : String := s.id 0

def Stamp.eventId (s : Stamp) (n : Nat) : String := s.id (n + 1)

structure TraceEvent where
  command : String
  /-- the command that started the chain -/
  origin : String
  /-- 1 for the command that started the chain -/
  depth : Nat
  args : Members Value
  output : Value
  error : Option String

namespace TraceEvent

/-- What is written of an event. -/
def toValue (id time : String) (e : TraceEvent) : Value :=
  .object <|
    [("trace_id", .string id), ("ts", .string time), ("command", .string e.command),
      ("origin", .string e.origin), ("depth", .ofNat e.depth),
      ("args", Redaction.redact (.object e.args)), ("output", Redaction.redact e.output)] ++
      Fields.present "error" .string (e.error.map Redaction.redactText)

def line (id time : String) (e : TraceEvent) : String := (e.toValue id time).compact

end TraceEvent

namespace Trace

/-- Makes the directory of a trace file. -/
def prepare (tree : FileTree) (path : String) : Except FileError FileTree :=
  match FileTree.parentPath? path with
  | some parent => tree.makeDirectories parent
  | none => .ok tree

/-- Adds a line to a trace file; a file that cannot be written stays as it is. -/
def append (tree : FileTree) (path line : String) : FileTree :=
  match prepare tree path with
  | .error _ => tree
  | .ok tree =>
    match tree.append path (line ++ "\n") with
    | .ok tree => tree
    | .error _ => tree

/-- The last lines of a trace file; a missing file has none. -/
def tail (tree : FileTree) (path : String) (count : Nat) : Except FileError (List String) :=
  if !tree.pathExists path then .ok []
  else (tree.readText path).map fun text =>
    let lines := Text.linesOf text
    lines.drop (lines.length - count)

end Trace

end CommandContract
