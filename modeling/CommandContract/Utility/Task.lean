import CommandContract.FileTree
import CommandContract.Members
import CommandContract.Shell.Bytes

set_option autoImplicit false

/-!
# Tasks of utilities

A utility is called under a name with arguments. Its task reads the standard input, reads and
changes files, writes to two streams, and ends with a status. Texts are texts of bytes.
-/
namespace CommandContract.Utility

export Shell (ofBytes toBytes ofText toText byteChar unlines linesAndEnd lines isSpaceChar)

structure Call where
  /-- the text that the utility was called under -/
  name : String
  args : List String
  environment : Members String
  deriving Repr

inductive Stream where
  | output
  | errors
  deriving DecidableEq, Repr

/-- What a task works on. -/
structure Desk where
  files : FileTree
  /-- what is left of the standard input -/
  input : Except FileError String
  /-- what was read of it can be given back -/
  seekable : Bool
  /-- how much of it was read -/
  taken : Nat
  /-- what was written, last first -/
  written : List (Stream × String)
  status : Nat

def Desk.start (files : FileTree) (input : Except FileError String) (seekable : Bool) : Desk :=
  ⟨files, input, seekable, 0, [], 0⟩

abbrev Task := StateM Desk

def write (s : Stream) (text : String) : Task Unit :=
  modify fun d => { d with written := (s, text) :: d.written }

def put (text : String) : Task Unit := write .output text

def putLine (text : String) : Task Unit := put (text ++ "\n")

/-- The status that the task ends with. -/
def finish (status : Nat) : Task Unit := modify fun d => { d with status }

/-- A message under the name of the utility. -/
def say (c : Call) (message : String) : Task Unit := write .errors (c.name ++ ": " ++ message ++ "\n")

/-- A message, and the status that goes with it. -/
def refuse (c : Call) (status : Nat) (message : String) : Task Unit := do
  say c message
  finish status

/-- A message about arguments that points to the help text. -/
def misuse (c : Call) (status : Nat) (message : String) : Task Unit :=
  refuse c status (message ++ "\nTry '" ++ c.name ++ " --help' for more information.")

/-! ## Input and files -/

/-- Takes some of the standard input. -/
def take (count : Nat) : Task Unit :=
  modify fun d =>
    match d.input with
    | .ok text =>
      { d with
        taken := d.taken + min count text.length
        input := .ok (String.ofList (text.toList.drop count)) }
    | .error _ => d

/-- Takes what a reader of whole blocks takes to see the first characters of the standard input. -/
def takeBlocks (size needed : Nat) : Task Unit := do
  take (if (← get).seekable then needed else (needed + size - 1) / size * size)

/-- Takes the standard input to its end. -/
def readInput : Task (Except FileError String) := do
  let input := (← get).input
  match input with
  | .ok text => take text.length
  | .error _ => pure ()
  return input

/-- The content of a file; `-` is the standard input. -/
def read (path : String) : Task (Except FileError String) := do
  if path = "-" || path = "/dev/stdin" then readInput
  else return ((← get).files.readBytes (toText path)).map ofBytes

/-- Replaces the content of a file, or writes to the stream that the path stands for. -/
def store (path text : String) (atEnd : Bool) : Task (Except FileError Unit) := do
  if path = "/dev/stdout" then
    put text
    return .ok ()
  else if path = "/dev/stderr" then
    write .errors text
    return .ok ()
  else
    let files := (← get).files
    let done := do
      let location ← files.writeLocation FileTree.maxLinks (toText path)
      files.writeAt location fun old => (if atEnd then old else []) ++ toBytes text
    match done with
    | .ok files =>
      modify fun d => { d with files }
      return .ok ()
    | .error cause => return .error cause

/-! ## Names in messages -/

/-- Characters that a name may have without being quoted. -/
def isPlainChar (c : Char) : Bool :=
  c.isAlphanum ||
    ['%', '+', ',', '-', '.', '/', ':', '@', '_', ']', '\x7b', '\x7d', '#', '~'].contains c

/-- A text in quotes. -/
def quoted (s : String) : String :=
  if s.toList.contains '\'' && !s.toList.any ['"', '$', '\x60', '\\'].contains then "\"" ++ s ++ "\""
  else "'" ++ s.replace "'" "'\\''" ++ "'"

/-- A text in quotes if it has unusual characters. -/
def quotedIfNeeded (s : String) : String :=
  let starts := match s.toList.head? with
    | some c => c = '#' || c = '~'
    | none => true
  if !starts && s.toList.all isPlainChar then s else quoted s

/-- Fills a text with blanks on the left. -/
def padLeft (width : Nat) (s : String) : String :=
  String.ofList (List.replicate (width - s.length) ' ') ++ s

/-! ## Options -/

inductive Arity where
  | flag
  | valued
  /-- the value stands in the same argument or is missing -/
  | perhaps
  deriving DecidableEq, Repr

/-- An option has a letter under which it is kept, and perhaps a long name. Letters of options
without a short form are capitals of the language of long names only. -/
structure OptionForm where
  letter : Char
  long : String
  arity : Arity
  /-- the letter itself may be written -/
  hasShort : Bool
  deriving DecidableEq, Repr

def flag (letter : Char) (long : String) : OptionForm := ⟨letter, long, .flag, true⟩

def valued (letter : Char) (long : String) : OptionForm := ⟨letter, long, .valued, true⟩

def longFlag (letter : Char) (long : String) : OptionForm := ⟨letter, long, .flag, false⟩

def longValued (letter : Char) (long : String) : OptionForm := ⟨letter, long, .valued, false⟩

/-- Options in their order, with their values, and what is left. -/
structure Choices where
  options : List (Char × String)
  operands : List String
  deriving DecidableEq, Repr

namespace Choices

def has (c : Choices) (letter : Char) : Bool := c.options.any (·.1 = letter)

/-- The value of the last option of a letter. -/
def value? (c : Choices) (letter : Char) : Option String :=
  (c.options.reverse.find? (·.1 = letter)).map (·.2)

/-- The last of the letters that was given. -/
def last? (c : Choices) (letters : List Char) : Option Char :=
  (c.options.reverse.find? fun o => letters.contains o.1).map (·.1)

end Choices

/-- The option that a long name stands for, which may be cut short. -/
def longForm? (forms : List OptionForm) (name : String) : Except String OptionForm :=
  match forms.find? (·.long = name) with
  | some f => .ok f
  | none =>
    match forms.filter fun f => f.long ≠ "" && f.long.startsWith name with
    | [] => .error ("unrecognized option '--" ++ name ++ "'")
    | f :: fs =>
      if fs.all (·.letter = f.letter) then .ok f
      else .error ("option '--" ++ name ++ "' is ambiguous; possibilities:" ++
        String.join ((f :: fs).map fun f => " '--" ++ f.long ++ "'"))

/-- The options of a cluster of letters; a value is the rest of the cluster or the next argument. -/
def readCluster (forms : List OptionForm) (next : Option String) :
    List Char → Except String (List (Char × String) × Bool)
  | [] => .ok ([], false)
  | c :: cs =>
    match forms.find? fun f => f.hasShort && f.letter = c with
    | none => .error ("invalid option -- '" ++ String.ofList [c] ++ "'")
    | some f =>
      match f.arity with
      | .flag => (readCluster forms next cs).map fun (os, used) => ((c, "") :: os, used)
      | .perhaps => .ok ([(c, String.ofList cs)], false)
      | .valued =>
        if !cs.isEmpty then .ok ([(c, String.ofList cs)], false)
        else
          match next with
          | some value => .ok ([(c, value)], true)
          | none => .error ("option requires an argument -- '" ++ String.ofList [c] ++ "'")

/-- A long option, with its value behind an equals sign or in the next argument. -/
def readLong (forms : List OptionForm) (next : Option String) (text : String) :
    Except String ((Char × String) × Bool) := do
  let (name, given) := match Text.cutAt? '=' text.toList with
    | some (name, value) => (String.ofList name, some (String.ofList value))
    | none => (text, none)
  let f ← longForm? forms name
  match f.arity, given with
  | .flag, none => .ok ((f.letter, ""), false)
  | .flag, some _ => .error ("option '--" ++ f.long ++ "' doesn't allow an argument")
  | .perhaps, given => .ok ((f.letter, given.getD ""), false)
  | .valued, some value => .ok ((f.letter, value), false)
  | .valued, none =>
    match next with
    | some value => .ok ((f.letter, value), true)
    | none => .error ("option '--" ++ f.long ++ "' requires an argument")

/-- Reads options up to `--`, also behind other arguments if they may stand there. -/
def readOptions (forms : List OptionForm) (anywhere : Bool) : List String → Except String Choices
  | [] => .ok ⟨[], []⟩
  | "--" :: rest => .ok ⟨[], rest⟩
  | arg :: rest =>
    match arg.toList with
    | '-' :: '-' :: long => do
      let (o, used) ← readLong forms rest.head? (String.ofList long)
      let more ← match used, rest with
        | true, _ :: rest => readOptions forms anywhere rest
        | _, rest => readOptions forms anywhere rest
      .ok ⟨o :: more.options, more.operands⟩
    | '-' :: c :: cs => do
      let (os, used) ← readCluster forms rest.head? (c :: cs)
      let more ← match used, rest with
        | true, _ :: rest => readOptions forms anywhere rest
        | _, rest => readOptions forms anywhere rest
      .ok ⟨os ++ more.options, more.operands⟩
    | _ =>
      if anywhere then
        (readOptions forms anywhere rest).map fun c => { c with operands := arg :: c.operands }
      else .ok ⟨[], arg :: rest⟩

/-- Goes on with the options of a call, or refuses them. -/
def withOptions (c : Call) (forms : List OptionForm) (status : Nat) (go : Choices → Task Unit) :
    Task Unit :=
  match readOptions forms true c.args with
  | .ok choices => go choices
  | .error message => misuse c status message

/-- The operands, or the standard input if there are none. -/
def Choices.paths (c : Choices) : List String := if c.operands.isEmpty then ["-"] else c.operands

end CommandContract.Utility
