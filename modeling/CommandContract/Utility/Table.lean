import CommandContract.Shell.Condition
import CommandContract.Shell.Format
import CommandContract.Utility.Calendar
import CommandContract.Utility.Characters
import CommandContract.Utility.Columns
import CommandContract.Utility.Comparing
import CommandContract.Utility.Counting
import CommandContract.Utility.Edit
import CommandContract.Utility.Encoding
import CommandContract.Utility.Places
import CommandContract.Utility.RecordRun
import CommandContract.Utility.Search
import CommandContract.Utility.Sorting

set_option autoImplicit false

/-!
# Utilities by name
-/
namespace CommandContract.Utility

/-- Options of the text writer: no line end, and whether escapes are replaced. -/
def writerOptions : List String → Bool × Bool → (Bool × Bool) × List String
  | [], marks => (marks, [])
  | arg :: rest, (bare, escapes) =>
    match arg.toList with
    | '-' :: c :: cs =>
      if (c :: cs).all ['n', 'e', 'E'].contains then
        let marks := (c :: cs).foldl (fun (bare, escapes) c =>
          if c = 'n' then (true, escapes) else (bare, c = 'e')) (bare, escapes)
        writerOptions rest marks
      else ((bare, escapes), arg :: rest)
    | _ => ((bare, escapes), arg :: rest)

def writeText (c : Call) : Task Unit := do
  let ((bare, escapes), args) := writerOptions c.args (false, false)
  let text := Text.joinWith " " args
  let (chars, ended) :=
    if escapes then Shell.unescape (text.length + 1) text.toList else (text.toList, false)
  put (String.ofList chars ++ (if bare || ended then "" else "\n"))

def writeFormatted (c : Call) : Task Unit := do
  match if c.args.head? = some "--" then c.args.drop 1 else c.args with
  | [] => misuse c 1 "missing operand"
  | template :: rest =>
    match Shell.format template.toList (rest.length + 1) ⟨[], rest, [], false⟩ with
    | .ok f =>
      put (String.ofList f.chars)
      for w in f.warnings do refuse c 1 w
    | .error (f, message) =>
      put (String.ofList f.chars)
      refuse c 1 message

def testWords (c : Call) : Task Unit := do
  let bracket := lastPart c.name = "["
  if bracket && c.args.getLast? ≠ some "]" then refuse c 2 "missing ']'"
  else
    match Shell.Condition.test (← get).files (if bracket then c.args.dropLast else c.args) with
    | .ok true => finish 0
    | .ok false => finish 1
    | .error message => refuse c 2 message

def showDirectory (_ : Call) : Task Unit := do
  putLine (ofText (← get).files.workingDirectory.text)

def showVariables (c : Call) : Task Unit := do
  if c.args.isEmpty then
    put (unlines (c.environment.map fun (name, value) => name ++ "=" ++ value))
  else
    for name in c.args do
      match Members.get? name c.environment with
      | some value => putLine value
      | none => finish 1

def showSystem (c : Call) : Task Unit := do
  match c.args with
  | [] => putLine "Linux"
  | ["-s"] => putLine "Linux"
  | args => if args.contains "-m" then putLine "x86_64" else putLine "Linux"

/-- What a utility does that runs no other program. -/
def task? (name : String) : Option (Call → Task Unit) :=
  match name with
  | "cat" => some copy
  | "tac" => some copyBackwards
  | "tee" => some copyToFiles
  | "head" => some beginning
  | "tail" => some ending
  | "wc" => some count
  | "uniq" => some dropRepeats
  | "sort" => some sort
  | "cmp" => some compareBytes
  | "comm" => some showCommonLines
  | "diff" => some showChanges
  | "cut" => some cutColumns
  | "paste" => some putSideBySide
  | "fold" => some foldLines
  | "nl" => some numberLines
  | "rev" => some turnLines
  | "tr" => some exchange
  | "basename" => some showLastParts
  | "dirname" => some showFrontParts
  | "seq" => some showNumbers
  | "yes" => some repeatLine
  | "expr" => some calculate
  | "mkdir" => some makeDirectories
  | "rmdir" => some removeDirectories
  | "rm" => some remove
  | "touch" => some touch
  | "cp" => some copyFiles
  | "mv" => some moveFiles
  | "ln" => some linkFiles
  | "chmod" => some changeModes
  | "readlink" => some showLinks
  | "realpath" => some showRealPaths
  | "ls" => some listFiles
  | "find" => some findFiles
  | "base64" => some encodeBase64
  | "md5sum" => some (showDigests Md5.digest)
  | "sha1sum" => some (showDigests Sha1.digest)
  | "sha256sum" => some (showDigests Sha256.digest)
  | "od" => some dump
  | "grep" => some searchLines
  | "egrep" => some searchLines
  | "fgrep" => some searchLines
  | "sed" => some edit
  | "awk" => some processRecords
  | "mawk" => some processRecords
  | "echo" => some writeText
  | "printf" => some writeFormatted
  | "test" => some testWords
  | "[" => some testWords
  | "pwd" => some showDirectory
  | "printenv" => some showVariables
  | "uname" => some showSystem
  | "date" => some showDate
  | "whoami" => some fun _ => putLine "root"
  | "true" => some fun _ => finish 0
  | "false" => some fun _ => finish 1
  | "sleep" => some fun _ => finish 0
  | "sync" => some fun _ => finish 0
  | _ => none

end CommandContract.Utility
