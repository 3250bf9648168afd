import CommandContract.Config.Basic
import CommandContract.Toml.Document

set_option autoImplicit false

/-!
# Finding the configuration

A configuration is read from a given file, which must exist, or from the one below the descriptor
root, which may be missing.
-/
namespace CommandContract.Config

def ofText (text : String) : Except ConfigFault Config :=
  match Toml.read text with
  | .error .deepKey => .error .deepKey
  | .error .malformed => .error .malformed
  | .ok v =>
    match ofValue? v with
    | some c => check c
    | none => .error .malformed

/-- The configuration of a file; a missing file is the default. -/
def ofFile (tree : FileTree) (path : String) : Except LoadError Config :=
  if !tree.pathExists path then .ok default
  else
    match tree.readText path with
    | .error cause => .error (.file cause)
    | .ok text =>
      match ofText text with
      | .ok c => .ok c
      | .error fault => .error (.config (some path) fault)

def discover (tree : FileTree) (env : Members String) (root : String) (explicit : Option String) :
    Except LoadError Config := do
  let path ← match explicit with
    | some p => if tree.pathExists p then .ok p else .error (.config none (.missingFile p))
    | none => .ok (Path.join root fileName)
  let c ← ofFile tree path
  match override env c with
  | .ok c => .ok c
  | .error fault => .error (.config none fault)

end CommandContract.Config
