import CommandContract.Text.Pieces

set_option autoImplicit false

/-!
# Paths

A path is a text; its components are what stands between slashes. Empty components and `.` are
passed over, except a `.` in front of a relative path. `Path.normalizeJoin` joins two paths and
cancels every `..` against the nearest name before it, without looking at any file.
-/
namespace CommandContract.Path

inductive Component where
  | root
  | current
  | parent
  | name (text : String)
  deriving DecidableEq, Repr

def isAbsolute (path : String) : Bool := path.toList.head? = some '/'

/-- The component that one piece between slashes stands for, if any. -/
def component? (piece : List Char) : Option Component :=
  if piece = [] ∨ piece = ['.'] then none
  else if piece = ['.', '.'] then some .parent
  else some (.name (String.ofList piece))

def components (path : String) : List Component :=
  let pieces := Text.splitOn '/' path.toList
  let lead :=
    if isAbsolute path then [.root] else if pieces.head? = some ['.'] then [.current] else []
  lead ++ pieces.filterMap component?

/-- The last component, if it is a name. -/
def fileName? (path : String) : Option String :=
  match (components path).getLast? with
  | some (.name text) => some text
  | _ => none

/-- The parts of a file name before and after its last dot. A name whose only dot is its first
character has no such parts. -/
def cutAtLastDot? (name : String) : Option (String × String) :=
  match Text.cutAt? '.' name.toList.reverse with
  | some (after, before) =>
    if before.isEmpty then none
    else some (String.ofList before.reverse, String.ofList after.reverse)
  | none => none

/-- The file name without its last extension. -/
def stem? (path : String) : Option String :=
  (fileName? path).map fun name => ((cutAtLastDot? name).map (·.1)).getD name

def extension? (path : String) : Option String :=
  (fileName? path).bind fun name => (cutAtLastDot? name).map (·.2)

/-- The last path component without its last extension; empty if there is none. -/
def basename (path : String) : String := (stem? path).getD ""

/-- The second path if it is absolute, else the second below the first. -/
def join (base path : String) : String :=
  if isAbsolute path then path
  else if base.isEmpty || base.toList.getLast? = some '/' then base ++ path
  else base ++ "/" ++ path

/-- The names that remain, nearest last, after every `..` removed the nearest name before it. -/
def resolveNames (names : List String) : List Component → List String
  | [] => names
  | .name text :: rest => resolveNames (names ++ [text]) rest
  | .parent :: rest => resolveNames names.dropLast rest
  | _ :: rest => resolveNames names rest

/-- The text of a path given by its names. -/
def ofNames (absolute : Bool) (names : List String) : String :=
  (if absolute then "/" else "") ++ "/".intercalate names

def normalizeJoin (base path : String) : String :=
  let joined := join base path
  ofNames (isAbsolute joined) (resolveNames [] (components joined))

end CommandContract.Path
