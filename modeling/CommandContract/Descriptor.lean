import CommandContract.Error
import CommandContract.Json.Reader
import CommandContract.Text.Blank

set_option autoImplicit false

/-!
# Descriptors

Every directory of a descriptor tree may carry five JSON files, one for each aspect of its
commands. Directories link to others below them; a link must stay inside, both as it is written and
after symbolic links are followed.
-/
namespace CommandContract

inductive DescriptorFile where
  /-- metadata and links -/
  | contract
  /-- kinds, parameters, defaults and bounds -/
  | commands
  /-- effects, outputs and fallbacks -/
  | runtime
  /-- descriptions and examples -/
  | help
  /-- rules for what runs next -/
  | routes
  deriving DecidableEq, Repr

namespace DescriptorFile

def all : List DescriptorFile := [contract, commands, runtime, help, routes]

def fileName : DescriptorFile → String
  | contract => "contract.json"
  | commands => "commands.json"
  | runtime => "runtime.json"
  | help => "help.json"
  | routes => "routes.json"

end DescriptorFile

namespace Descriptor

/-- The object of one descriptor file, nothing if the file is missing; a blank file is the empty
object. -/
def read (tree : FileTree) (directory : String) (file : DescriptorFile) :
    Except LoadError (Option (Members Value)) :=
  let path := Path.join directory file.fileName
  if !tree.pathExists path then .ok none
  else
    match tree.readText path with
    | .error cause => .error (.file cause)
    | .ok text =>
      if text.isBlankText then .ok (some [])
      else
        match Value.ofJson? text with
        | none => .error (.invalidDescriptor path .notJson)
        | some (.object members) => .ok (some members)
        | some v => .error (.invalidDescriptor path (.notObject v.kind))

/-- A missing file reads as the empty object. -/
def readOrEmpty (tree : FileTree) (directory : String) (file : DescriptorFile) :
    Except LoadError (Members Value) :=
  (read tree directory file).map (·.getD [])

/-- Some leading run of the components, begun at the given depth, leaves the directory. -/
def escapesFrom : Int → List Path.Component → Bool
  | _, [] => false
  | depth, c :: rest =>
    let depth :=
      match c with
      | .parent => depth - 1
      | .name _ => depth + 1
      | _ => depth
    depth < 0 || escapesFrom depth rest

/-- The directory that a link declared in another one leads to. -/
def resolveLink (tree : FileTree) (directory link : String) : Except LoadError Location :=
  if link.isBlankText then .error (.link (.empty directory))
  else if Path.isAbsolute link then .error (.link (.absolute link directory))
  else if escapesFrom 0 (Path.components link) then .error (.link (.escapes link directory))
  else
    match tree.canonical directory with
    | .error cause => .error (.file cause)
    | .ok base =>
      match tree.canonical (Path.join (Location.text base) link) with
      | .error cause => .error (.link (.unresolved link cause))
      | .ok target =>
        if !base.isPrefixOf target then .error (.link (.outside link (Location.text base)))
        else if tree.entry? target ≠ some .directory then .error (.link (.notDirectory link))
        else .ok target

end Descriptor

end CommandContract
