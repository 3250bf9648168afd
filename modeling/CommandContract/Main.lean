import CommandContract.CommandLine.Activity
import CommandContract.Identifier
import Std.Time.DateTime.Timestamp

set_option autoImplicit false

/-!
# The program

Reads the files below the working directory and below the descriptor root into a tree, runs the
command line on it, and writes back what the run changed.
-/
namespace CommandContract

def environmentNames : List String := [
  "CARAPACE_MAX_CHAIN_DEPTH", "CARAPACE_ALLOW_EXTERNAL", "CARAPACE_LOG", "CLICOLOR",
  "CLICOLOR_FORCE", "NO_COLOR"]

def readEnvironment : IO (Members String) :=
  environmentNames.filterMapM fun name => do
    return (← IO.getEnv name).map fun value => (name, value)

def locationOf (path : String) : Location := FileTree.piecesOf path

/-- Scripts count as executable. -/
def fileEntry (path : String) : IO FileEntry := do
  let bytes := (← IO.FS.readBinFile path).toList.map UInt8.toNat
  return .file bytes (bytes.take 2 = Text.utf8 "#!")

/-- Adds what stands in a directory, down to a depth. What cannot be read is left out. -/
def addDirectory : Nat → String → FileTree → IO FileTree
  | 0, _, tree => return tree
  | depth + 1, path, tree => do
    let mut tree := tree.plant (locationOf path) .directory
    for child in ← (← IO.FS.realPath path).readDir do
      let childPath := Path.join path child.fileName
      try
        match (← child.path.symlinkMetadata).type with
        | .dir => tree ← addDirectory depth childPath tree
        | .symlink =>
          let target ← IO.FS.realPath child.path
          tree := tree.plant (locationOf childPath) (.link target.toString)
        | .file => tree := tree.plant (locationOf childPath) (← fileEntry childPath)
        | .other => pure ()
      catch _ => pure ()
    return tree

/-- Adds a directory that exists. -/
def addIfPresent (path : String) (tree : FileTree) : IO FileTree := do
  try addDirectory 64 (← IO.FS.realPath path).toString tree catch _ => return tree

/-- Adds a file that exists, under the name it is given by. -/
def addFile (path : String) (tree : FileTree) : IO FileTree := do
  try
    let directory := if Path.isAbsolute path then [] else tree.workingDirectory
    return tree.plant (directory ++ locationOf path) (← fileEntry path)
  catch _ => return tree

def readTree (args : List String) : IO FileTree := do
  let here := (← IO.FS.realPath ".").toString
  let empty : FileTree := ⟨[], locationOf here⟩
  let devices := (empty.plant ["dev", "null"] .sink).put ["dev", "zero"] .zeros
  let tree ← addIfPresent here devices
  match CommandLine.Options.ofArgs args with
  | .error _ => return tree
  | .ok options =>
    let tree ← if options.root = "." then pure tree else addIfPresent options.root tree
    match options.config with
    | none => return tree
    | some path => if tree.pathExists path then return tree else addFile path tree

/-- The rights of a script, or of another file. -/
def accessRights (executable : Bool) : IO.FileRight :=
  ⟨⟨true, true, executable⟩, ⟨true, false, executable⟩, ⟨true, false, executable⟩⟩

/-- Writes the entries of a tree that another one does not have, and takes those away that it alone
has. -/
def writeChanges (before after : FileTree) : IO Unit := do
  for (location, entry) in before.entries.reverse do
    if (after.entry? location).isNone then
      match entry with
      | .directory => IO.FS.removeDirAll location.text
      | _ => try IO.FS.removeFile location.text catch _ => pure ()
  for (location, entry) in after.entries do
    if before.entry? location ≠ some entry then
      match entry with
      | .directory => IO.FS.createDirAll location.text
      | .file bytes executable =>
        IO.FS.writeBinFile location.text ⟨(bytes.map UInt8.ofNat).toArray⟩
        if executable then IO.setAccessRights location.text (accessRights executable)
      | _ => pure ()

def newStamp : IO Stamp := do
  let now := (← Std.Time.Timestamp.now).toNanosecondsSinceUnixEpoch.toInt.toNat
  let random := (← IO.getRandomBytes 10).toList.foldl (fun n b => 256 * n + b.toNat) 0
  return {
    time := toString (now / pow10 9) ++ "Z"
    id := fun n => Identifier.ofParts (now / pow10 6) (random + n) }

/-- Answers the lines of the input as they come. -/
partial def serve (answer : Stamp → Session → String → CommandLine.Reply) (s : Session) :
    IO Unit := do
  let line ← (← IO.getStdin).getLine
  unless line.isEmpty do
    let reply := answer (← newStamp) s (String.join (Text.linesOf line))
    writeChanges s.tree reply.session.tree
    let output ← IO.getStdout
    output.putStr reply.output
    output.flush
    unless reply.isLast do serve answer reply.session

end CommandContract

open CommandContract in
def main (args : List String) : IO UInt32 := do
  let tree ← readTree args
  let around : CommandLine.Surroundings :=
    ⟨tree, ← readEnvironment, ← (← IO.getStdout).isTty⟩
  match CommandLine.start around (← newStamp) args with
  | .lines s answer =>
    serve answer s
    return 0
  | .finished outcome =>
    writeChanges tree outcome.tree
    IO.print outcome.output
    if let some message := outcome.error then
      IO.eprintln ("Error: " ++ message)
    return UInt32.ofNat outcome.exit
