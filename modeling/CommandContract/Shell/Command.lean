set_option autoImplicit false

/-!
# Commands of a script

A word is a list of parts: text, quoted or not, and what is to be put in when the word is expanded.
A command is simple, or made of others; commands that can fail at run time know the line they began
on.
-/
namespace CommandContract.Shell

/-- What is asked of a parameter. `emptyToo` treats an empty value like a missing one. -/
inductive Operator where
  | value
  | length
  | fallback (emptyToo : Bool)
  | assign (emptyToo : Bool)
  | demand (emptyToo : Bool)
  | replace (emptyToo : Bool)
  | trimFront (longest : Bool)
  | trimBack (longest : Bool)
  | unknown
  deriving DecidableEq, Repr

/-- How a file is opened. -/
inductive Opening where
  | read
  | write
  /-- also where files are protected from being overwritten -/
  | overwrite
  | append
  | readWrite
  deriving DecidableEq, Repr

mutual

inductive Part where
  | text (cs : List Char) (quoted : Bool)
  | parameter (name : String) (operator : Operator) (word : List Part) (quoted : Bool)
  | output (script : Command) (quoted : Bool)
  | arithmetic (word : List Part) (quoted : Bool)

inductive Redirection where
  | file (stream : Nat) (opening : Opening) (target : List Part)
  /-- the stream that the target names -/
  | same (stream : Nat) (target : List Part)
  /-- the text of a here-document, by its number -/
  | document (stream : Nat) (number : Nat)

inductive Command where
  | simple (line : Nat) (assignments : List (String × List Part)) (words : List (List Part))
    (redirections : List Redirection)
  | pipeline (stages : List Command)
  | background (c : Command)
  | negation (c : Command)
  | conjunction (a b : Command)
  | disjunction (a b : Command)
  | sequence (cs : List Command)
  | branch (test body other : Command)
  | loop (untilTrue : Bool) (test body : Command)
  | each (line : Nat) (name : String) (words : List (List Part)) (body : Command)
  | choice (line : Nat) (word : List Part) (arms : List (List (List Part) × Command))
  | subshell (line : Nat) (body : Command) (redirections : List Redirection)
  | redirected (line : Nat) (body : Command) (redirections : List Redirection)
  | define (name : String) (body : Command)

end

abbrev Word := List Part

instance : Inhabited Command := ⟨.sequence []⟩

/-- A command that does nothing. -/
def Command.nothing : Command := .sequence []

/-- Puts a character in front of parts. -/
def addChar (c : Char) (quoted : Bool) : List Part → List Part
  | .text cs q :: ps =>
    if q = quoted then .text (c :: cs) q :: ps else .text [c] quoted :: .text cs q :: ps
  | ps => .text [c] quoted :: ps

/-- The text of a word that has nothing quoted and nothing to put in. -/
def plainText? : Word → Option String
  | [] => some ""
  | [.text cs false] => some (String.ofList cs)
  | _ => none

/-- A word that is a text. -/
def wordOf (s : String) : Word := [.text s.toList true]

end CommandContract.Shell
