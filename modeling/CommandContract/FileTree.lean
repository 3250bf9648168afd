import CommandContract.Path
import CommandContract.Text.Utf8

set_option autoImplicit false

/-!
# Trees of files

A tree of directories, files and symbolic links, with a working directory for relative paths. A file
is a run of bytes. `FileTree.canonical` follows every link and gives the names from the top of the
tree to what a path stands for; `FileTree.locate` does the same for paths of the length that a
system takes. Operations fail with the causes an operating system reports.
-/
namespace CommandContract

inductive FileError where
  | notFound
  | notExecutableFormat
  | badHandle
  | permissionDenied
  | busy
  | alreadyThere
  | notDirectory
  | isDirectory
  | invalidArgument
  | nameTooLong
  | notEmpty
  | tooManyLinks
  /-- a path holds the character that ends one -/
  | nulInPath
  /-- the bytes of a file are no text -/
  | notText
  deriving DecidableEq, Repr

/-- The words of a cause. -/
def FileError.reason : FileError → String
  | notFound => "No such file or directory"
  | notExecutableFormat => "Exec format error"
  | badHandle => "Bad file descriptor"
  | permissionDenied => "Permission denied"
  | busy => "Device or resource busy"
  | alreadyThere => "File exists"
  | notDirectory => "Not a directory"
  | isDirectory => "Is a directory"
  | invalidArgument => "Invalid argument"
  | nameTooLong => "File name too long"
  | notEmpty => "Directory not empty"
  | tooManyLinks => "Too many levels of symbolic links"
  | nulInPath => "file name contained an unexpected NUL byte"
  | notText => "stream did not contain valid UTF-8"

/-- The number of a cause, if the system reported it. -/
def FileError.number? : FileError → Option Nat
  | notFound => some 2
  | notExecutableFormat => some 8
  | badHandle => some 9
  | permissionDenied => some 13
  | busy => some 16
  | alreadyThere => some 17
  | notDirectory => some 20
  | isDirectory => some 21
  | invalidArgument => some 22
  | nameTooLong => some 36
  | notEmpty => some 39
  | tooManyLinks => some 40
  | nulInPath => none
  | notText => none

def FileError.message (e : FileError) : String :=
  match e.number? with
  | some n => e.reason ++ " (os error " ++ toString n ++ ")"
  | none => e.reason

inductive FileEntry where
  | directory
  | file (content : List Nat) (executable : Bool)
  | link (target : String)
  /-- holds nothing and takes everything -/
  | sink
  /-- gives zeros as long as somebody reads, and takes everything -/
  | zeros
  deriving DecidableEq, Repr

/-- A file with the bytes of a text. -/
def FileEntry.ofText (text : String) (executable : Bool) : FileEntry :=
  .file (Text.utf8 text) executable

/-- The names from the top of the tree to an entry. -/
abbrev Location := List String

structure FileTree where
  /-- every entry below the top, a directory before what it holds -/
  entries : List (Location × FileEntry)
  workingDirectory : Location
  deriving DecidableEq, Repr

def Location.text (location : Location) : String := Path.ofNames true location

namespace FileTree

/-- The entry at a location, links not followed. The top is a directory. -/
def entry? (tree : FileTree) (location : Location) : Option FileEntry :=
  if location.isEmpty then some .directory
  else (tree.entries.find? fun e => e.1 = location).map (·.2)

/-- Replaces the entry at a location, or adds it. -/
def put (tree : FileTree) (location : Location) (entry : FileEntry) : FileTree :=
  if tree.entries.any (fun e => e.1 = location) then
    { tree with entries := tree.entries.map fun e => if e.1 = location then (location, entry) else e }
  else { tree with entries := tree.entries ++ [(location, entry)] }

/-- Takes the entry at a location away, and everything below it. -/
def erase (tree : FileTree) (location : Location) : FileTree :=
  { tree with entries := tree.entries.filter fun e => !location.isPrefixOf e.1 }

/-- The names in a directory, in the order of their code points. -/
def children (tree : FileTree) (location : Location) : List String :=
  let names := tree.entries.filterMap fun e =>
    if e.1.dropLast = location then e.1.getLast? else none
  names.mergeSort fun a b => a ≤ b

/-- The pieces of a path between slashes; one that ends in a slash ends in a directory. -/
def piecesOf (path : String) : List String :=
  let pieces := ((Text.splitOn '/' path.toList).map String.ofList).filter (· ≠ "")
  if path.toList.getLast? = some '/' then pieces ++ ["."] else pieces

/-- Links that one path may lead through. -/
def maxLinks : Nat := 40

/-- Bytes that one name may have. -/
def maxName : Nat := 255

/-- Bytes that a path may have. -/
def maxPath : Nat := 4095

def isLongName (piece : String) : Bool := maxName < piece.utf8ByteSize

/-- Walks on from a directory, which needs one step for every piece and may follow `links` links.
-/
def walk (tree : FileTree) : Nat → Nat → Location → List String → Except FileError Location
  | _, _, at_, [] => .ok at_
  | 0, _, _, _ :: _ => .error .tooManyLinks
  | steps + 1, links, at_, piece :: pieces =>
    match tree.entry? at_ with
    | some .directory =>
      if piece = "." then walk tree steps links at_ pieces
      else if piece = ".." then walk tree steps links at_.dropLast pieces
      else if isLongName piece then .error .nameTooLong
      else
        match tree.entry? (at_ ++ [piece]) with
        | none => .error .notFound
        | some (.link target) =>
          match links with
          | 0 => .error .tooManyLinks
          | links + 1 =>
            let base := if Path.isAbsolute target then [] else at_
            if target.isEmpty then .error .notFound
            else walk tree steps links base (piecesOf target ++ pieces)
        | some _ => walk tree steps links (at_ ++ [piece]) pieces
    | _ => .error .notDirectory

/-- Enough steps for a path and the links that it may lead through. -/
def walkSteps (tree : FileTree) (path : String) : Nat :=
  let longest := (tree.entries.map fun e =>
    match e.2 with
    | .link target => target.length
    | _ => 0).foldl max 0
  path.length + 2 + maxLinks * (longest + 2)

/-- What a path stands for, with every link followed. -/
def canonical (tree : FileTree) (path : String) : Except FileError Location :=
  if path.contains '\x00' then .error .nulInPath
  else if path.isEmpty then .error .notFound
  else
    let base := if Path.isAbsolute path then [] else tree.workingDirectory
    tree.walk (tree.walkSteps path) maxLinks base (piecesOf path)

/-- What a path of bounded length stands for. -/
def locate (tree : FileTree) (path : String) : Except FileError Location :=
  if path.contains '\x00' then .error .nulInPath
  else if maxPath < path.utf8ByteSize then .error .nameTooLong
  else tree.canonical path

/-- The entry that a path stands for, links followed. -/
def target? (tree : FileTree) (path : String) : Option FileEntry :=
  match tree.locate path with
  | .ok location => tree.entry? location
  | .error _ => none

def pathExists (tree : FileTree) (path : String) : Bool := (tree.target? path).isSome

def isFile (tree : FileTree) (path : String) : Bool :=
  match tree.target? path with
  | some (.file _ _) => true
  | _ => false

def isDirectory (tree : FileTree) (path : String) : Bool :=
  match tree.target? path with
  | some .directory => true
  | _ => false

/-- The size in bytes of the file that a path stands for. -/
def size? (tree : FileTree) (path : String) : Option Nat :=
  match tree.target? path with
  | some (.file content _) => some content.length
  | _ => none

/-- All bytes of the file at a location, which has to end. -/
def contentAt (tree : FileTree) (location : Location) : Except FileError (List Nat) :=
  match tree.entry? location with
  | some (.file content _) => .ok content
  | some .sink => .ok []
  | some .zeros => .error .invalidArgument
  | some _ => .error .isDirectory
  | none => .error .notFound

/-- A number of bytes from the beginning of a file, or all if there are less. -/
def startAt (tree : FileTree) (count : Nat) (location : Location) : Except FileError (List Nat) :=
  if tree.entry? location = some .zeros then .ok (List.replicate count 0)
  else (tree.contentAt location).map (·.take count)

def readBytes (tree : FileTree) (path : String) : Except FileError (List Nat) := do
  tree.contentAt (← tree.locate path)

def readText (tree : FileTree) (path : String) : Except FileError String := do
  match Text.ofUtf8? (← tree.readBytes path) with
  | some text => .ok text
  | none => .error .notText

/-! ## Writing -/

/-- Makes the directories that a path leads through, from a directory on. -/
def makeFrom (tree : FileTree) : Location → List String → Except FileError FileTree
  | _, [] => .ok tree
  | at_, piece :: pieces =>
    if piece = "." then makeFrom tree at_ pieces
    else if piece = ".." then makeFrom tree at_.dropLast pieces
    else if isLongName piece then .error .nameTooLong
    else
      let next := at_ ++ [piece]
      match tree.entry? next with
      | none => makeFrom (tree.put next .directory) next pieces
      | some .directory => makeFrom tree next pieces
      | some (.link _) =>
        match tree.canonical (Location.text next) with
        | .ok location =>
          match tree.entry? location with
          | some .directory => makeFrom tree location pieces
          | _ => .error .alreadyThere
        | .error _ => .error .alreadyThere
      | some _ => if pieces.isEmpty then .error .alreadyThere else .error .notDirectory

def makeDirectories (tree : FileTree) (path : String) : Except FileError FileTree :=
  if path.isEmpty then .ok tree
  else if path.contains '\x00' then .error .nulInPath
  else if maxPath < path.utf8ByteSize then .error .nameTooLong
  else tree.makeFrom (if Path.isAbsolute path then [] else tree.workingDirectory) (piecesOf path)

/-- The directory part of a path: all but its last component. -/
def parentPath? (path : String) : Option String :=
  match (Path.components path).reverse with
  | [] => none
  | .root :: _ => none
  | _ :: before =>
    let names := before.reverse.filterMap fun c =>
      match c with
      | .name text => some text
      | .parent => some ".."
      | .current => some "."
      | .root => none
    some (Path.ofNames (Path.isAbsolute path) names)

/-- Where a file to be written stands: links are followed, and a missing last name is allowed. -/
def writeLocation (tree : FileTree) : Nat → String → Except FileError Location
  | 0, _ => .error .tooManyLinks
  | fuel + 1, path =>
    match tree.locate path with
    | .ok location => .ok location
    | .error .notFound => do
      let parent ← tree.canonical (Path.join ((parentPath? path).getD "") ".")
      match Path.fileName? path with
      | none => .error .notFound
      | some name =>
        if path.toList.getLast? = some '/' then .error .isDirectory
        else
          match tree.entry? (parent ++ [name]) with
          | some (.link target) =>
            tree.writeLocation fuel (Path.join (Location.text parent) target)
          | _ => if tree.entry? parent = some .directory then .ok (parent ++ [name]) else
            .error .notDirectory
    | .error e => .error e

/-- Changes the bytes of the file at a location, which is made if it is missing. -/
def writeAt (tree : FileTree) (location : Location) (change : List Nat → List Nat) :
    Except FileError FileTree :=
  match tree.entry? location with
  | some (.file old executable) => .ok (tree.put location (.file (change old) executable))
  | some .sink => .ok tree
  | some .zeros => .ok tree
  | some _ => .error .isDirectory
  | none => .ok (tree.put location (.file (change []) false))

/-- Adds a text to the end of a file, which is made if it is missing. -/
def append (tree : FileTree) (path text : String) : Except FileError FileTree := do
  let location ← tree.writeLocation maxLinks path
  tree.writeAt location (· ++ Text.utf8 text)

/-- The directories above a location, from the top. -/
def above (location : Location) : List Location :=
  (List.range location.length).map location.take

/-- Puts an entry, with the directories above it that are missing. -/
def plant (tree : FileTree) (location : Location) (entry : FileEntry) : FileTree :=
  let tree := (above location).foldl
    (fun t l => if (t.entry? l).isSome then t else t.put l .directory) tree
  tree.put location entry

/-- The longest location of the tree. -/
def height (tree : FileTree) : Nat := (tree.entries.map fun e => e.1.length).foldl max 0

end FileTree

end CommandContract
