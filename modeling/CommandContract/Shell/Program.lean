import CommandContract.Utility.Table

set_option autoImplicit false

/-!
# Programs

What a system runs for a path: a utility, the shell, or the interpreter that the first line of a
file names. Programs without a slash in their names are looked for in some directories.
-/
namespace CommandContract.Shell

/-- A program that runs another one with changed surroundings. -/
inductive Wrapper where
  /-- with other variables -/
  | environment
  /-- with words of the input as arguments -/
  | arguments
  /-- with a number of its own arguments in front -/
  | plain (operands : Nat)
  deriving DecidableEq, Repr

inductive Runner where
  | shell
  | wrapper (w : Wrapper)
  | task (t : Utility.Call → Utility.Task Unit)

def runner? (name : String) : Option Runner :=
  match name with
  | "sh" => some .shell
  | "dash" => some .shell
  | "bash" => some .shell
  | "env" => some (.wrapper .environment)
  | "xargs" => some (.wrapper .arguments)
  | "nohup" => some (.wrapper (.plain 0))
  | "nice" => some (.wrapper (.plain 0))
  | "setsid" => some (.wrapper (.plain 0))
  | "timeout" => some (.wrapper (.plain 1))
  | name => (Utility.task? name).map .task

/-- A program that is ready to run, and the texts that it is called with, its own name first. -/
structure Image where
  runner : Runner
  words : List String

/-- The name of a program that the system itself has at a path. -/
def systemName? (path : String) : Option String :=
  match Path.components path with
  | [.root, .name "bin", .name name] => some name
  | [.root, .name "usr", .name "bin", .name name] => some name
  | _ => none

/-- The bytes of the first line of a file that may name an interpreter. -/
def maxFirstLine : Nat := 255

def isBlankChar (c : Char) : Bool := c = ' ' || c = '\t'

/-- The interpreter that a script names, and the one argument that may stand behind it. -/
def interpreter? (content : String) : Option (String × Option String) := do
  let start := content.toList.take maxFirstLine
  let rest ← Text.dropLeading? ['#', '!'] start
  let line := rest.takeWhile (· ≠ '\n')
  let isWhole := rest.contains '\n' || content.length < maxFirstLine
  let line := (line.reverse.dropWhile isBlankChar).reverse
  let (path, behind) := (line.dropWhile isBlankChar).span fun c => !isBlankChar c
  if path.isEmpty || (!isWhole && behind.isEmpty) then none
  else
    let arg := behind.dropWhile isBlankChar
    some (String.ofList path, if arg.isEmpty then none else some (String.ofList arg))

/-- What runs for a path. An interpreter may itself be a script, up to a depth. -/
def imageOf (tree : FileTree) : Nat → String → List String → Except FileError Image
  | 0, _, _ => .error .tooManyLinks
  | depth + 1, path, words =>
    match (systemName? (toText path)).bind runner? with
    | some runner => .ok ⟨runner, words⟩
    | none => do
      let location ← tree.locate (toText path)
      match tree.entry? location with
      | some (.file bytes true) =>
        match interpreter? (ofBytes bytes) with
        | none => .error .notExecutableFormat
        | some (interpreter, argument) =>
          imageOf tree depth interpreter
            (interpreter :: argument.toList ++ path :: words.drop 1)
      | some _ => .error .permissionDenied
      | none => .error .notFound

/-- Scripts that interpret scripts may be nested this deep. -/
def maxInterpreters : Nat := 5

/-- Where programs are looked for if nothing says it. -/
def defaultPath : String := "/usr/local/sbin:/usr/local/bin:/usr/sbin:/usr/bin:/sbin:/bin"

/-- The path of a program of a name, in the first of some directories that has it. -/
def findProgram (tree : FileTree) (directories : String) (name : String) : Except FileError String :=
  let candidates := (Text.splitOn ':' directories.toList).map fun d =>
    if d.isEmpty then name else String.ofList d ++ "/" ++ name
  let found := candidates.find? fun path =>
    ((systemName? (toText path)).bind runner?).isSome || tree.isFile (toText path)
  match found with
  | some path => .ok path
  | none => .error .notFound

end CommandContract.Shell
