import CommandContract.Handler.Builtin
import CommandContract.Handler.Program
import CommandContract.Text.Diagnostic

set_option autoImplicit false

/-!
# Handlers by name

A handler answers an invocation with a value or a message. A registry holds one handler for a
name, in the order of names. Handlers of the host come first; built-in handlers and programs are
bound only to commands that have none.
-/
namespace CommandContract

inductive Handler where
  | host (answer : Invocation → Except String Value)
  | builtin (b : Builtin)
  | program (p : Program)

/-- Runs a handler. Programs see the files and may change them. -/
def Handler.run (tree : FileTree) (i : Invocation) : Handler → FileTree × Except String Value
  | host answer => (tree, answer i)
  | builtin b => (tree, b.run i)
  | program p =>
    let (tree, result) := p.run tree i.args
    (tree, result.mapError Program.Fault.message)

structure Registry where
  /-- in the order of names -/
  bindings : List (String × Handler)

namespace Registry

def empty : Registry := ⟨[]⟩

def get? (r : Registry) (name : String) : Option Handler := Members.get? name r.bindings

def has (r : Registry) (name : String) : Bool := (r.get? name).isSome

/-- Puts a binding at the place of its name; an earlier one of that name is replaced. -/
def insert (name : String) (h : Handler) : List (String × Handler) → List (String × Handler)
  | [] => [(name, h)]
  | (other, g) :: rest =>
    if name = other then (name, h) :: rest
    else if name < other then (name, h) :: (other, g) :: rest
    else (other, g) :: insert name h rest

def bind (r : Registry) (name : String) (h : Handler) : Registry := ⟨insert name h r.bindings⟩

def names (r : Registry) : List String := r.bindings.map (·.1)

def size (r : Registry) : Nat := r.bindings.length

/-- The names in a diagnostic form. -/
def shown (r : Registry) : String :=
  "HandlerRegistry \x7b handlers: [" ++ Text.joinWith ", " (r.names.map Text.shown) ++ "] \x7d"

/-- Binds what a rule gives for the commands that have no handler. -/
def bindFree (rule : CommandSpec → Option Handler) (commands : List CommandSpec) (r : Registry) :
    Registry :=
  commands.foldl
    (fun r c =>
      if r.has c.name then r
      else
        match rule c with
        | some h => r.bind c.name h
        | none => r)
    r

theorem get?_bind_self (r : Registry) (name : String) (h : Handler) :
    (r.bind name h).get? name = some h := by
  obtain ⟨bindings⟩ := r
  simp only [bind, get?]
  induction bindings with
  | nil => simp [insert, Members.get?]
  | cons b rest ih =>
    obtain ⟨other, g⟩ := b
    by_cases hn : name = other
    · simp [insert, Members.get?, hn]
    · by_cases hl : name < other
      · simp [insert, Members.get?, hn, hl]
      · simp [insert, Members.get?, hn, hl, Ne.symm hn, ih]

end Registry

end CommandContract
