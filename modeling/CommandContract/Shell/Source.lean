import CommandContract.Members
import CommandContract.Shell.Bytes
import CommandContract.Shell.Command

set_option autoImplicit false

/-!
# Sources of scripts

What is left of a script that is being read: characters, the line, a token that was given back, and
the here-documents whose texts are still to come. Two characters that join lines are passed over
unseen.
-/
namespace CommandContract.Shell

structure Fault where
  line : Nat
  message : String
  deriving DecidableEq, Repr

/-- What a redirection is followed by. -/
inductive Arrow where
  | opening (o : Opening)
  | same
  | document (stripTabs : Bool)
  deriving DecidableEq, Repr

inductive Token where
  | endOfText
  | lineEnd
  | semicolon
  | ampersand
  | andIf
  | orIf
  | bar
  | openParen
  | closeParen
  | endOfArm
  | arrow (stream : Nat) (a : Arrow)
  | word (w : Word)

/-- A here-document whose text is still to come. -/
structure Pending where
  number : Nat
  mark : String
  stripTabs : Bool
  /-- nothing in it is put in -/
  verbatim : Bool

/-- What is left of a script. -/
structure Source where
  rest : List Char
  line : Nat
  pushed : Option Token
  pending : List Pending
  /-- the texts of here-documents, by their numbers -/
  documents : List (Nat × Word)
  /-- how many here-documents have a number -/
  numbered : Nat
  /-- texts that stand for the first words of commands -/
  aliases : Members String

abbrev Reading := StateT Source (Except Fault)

namespace Reading

def fail {α : Type} (message : String) : Reading α := do
  throw ⟨(← get).line, message⟩

/-- Reports a fault of the grammar. -/
def refuse {α : Type} (message : String) : Reading α := fail ("Syntax error: " ++ message)

/-- Takes what two characters that join lines hide. -/
def joinLines : Nat → Reading Unit
  | 0 => pure ()
  | fuel + 1 => do
    let s ← get
    match s.rest with
    | '\\' :: '\n' :: cs =>
      set { s with rest := cs, line := s.line + 1 }
      joinLines fuel
    | _ => pure ()

def peek? : Reading (Option Char) := do
  match (← get).rest with
  | '\\' :: '\n' :: cs =>
    joinLines cs.length.succ
    return (← get).rest.head?
  | cs => return cs.head?

def advance : Reading Unit := modify fun s =>
  match s.rest with
  | '\n' :: cs => { s with rest := cs, line := s.line + 1 }
  | _ :: cs => { s with rest := cs }
  | [] => s

/-- Takes a character if it comes next. -/
def accept (c : Char) : Reading Bool := do
  if (← peek?) = some c then
    advance
    return true
  else return false

/-- Takes characters of a kind. -/
def takeWhile (keep : Char → Bool) : Nat → Reading (List Char)
  | 0 => pure []
  | fuel + 1 => do
    match ← peek? with
    | some c =>
      if keep c then
        advance
        return c :: (← takeWhile keep fuel)
      else return []
    | none => return []

def takeAll (keep : Char → Bool) : Reading (List Char) := do
  takeWhile keep (← get).rest.length

end Reading

end CommandContract.Shell
