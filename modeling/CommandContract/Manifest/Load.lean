import CommandContract.Descriptor
import CommandContract.Manifest.Basic
import CommandContract.Merge

set_option autoImplicit false

/-!
# Loading a descriptor tree

The commands of one directory are composed of four files, each of which only adds. Then the trees
that it links to are merged: a source fills gaps and its names stay, a target stands under a
namespace and wins every conflict. A link that cannot be followed is passed over; a directory that
it is being reached through already is no target.
-/
namespace CommandContract

/-- What is merged of a directory and those below it, before commands are read from it. -/
structure RawManifest where
  metadata : Members Value
  commands : Members Value

namespace RawManifest

/-- Adds the entries of one file to the commands. Entries that are no objects are passed over, and
of routes only the rules count. -/
def composeFile (commands : Members Value) (file : DescriptorFile) : Members Value → Members Value
  | [] => commands
  | (name, .object properties) :: rest =>
    let properties :=
      if file = .routes then properties.filter (fun p => p.1 = "next") else properties
    let spec :=
      match Members.get? name commands with
      | some existing => existing.merge .keepExisting (.object properties)
      | none => .object properties
    composeFile (Members.put name spec commands) file rest
  | _ :: rest => composeFile commands file rest

/-- The files that describe commands, the strongest first. -/
def commandFiles : List DescriptorFile := [.commands, .runtime, .help, .routes]

def composeCommands (tree : FileTree) (directory : String) : Except LoadError (Members Value) :=
  commandFiles.foldlM
    (fun commands file =>
      (Descriptor.readOrEmpty tree directory file).map (composeFile commands file))
    []

/-- The declared links of one kind: labels and texts. -/
def links (key : String) (metadata : Members Value) : List (String × String) :=
  match Members.get? key metadata with
  | some (.object members) =>
    members.filterMap fun (label, v) => v.string?.map fun link => (label, link)
  | _ => []

/-- Adds or merges the commands of a subtree, renamed. -/
def mergeCommands (p : Precedence) (rename : String → String) (commands : Members Value) :
    List (String × Value) → Members Value
  | [] => commands
  | (name, spec) :: rest =>
    let spec :=
      match Members.get? (rename name) commands with
      | some existing => existing.merge p spec
      | none => spec
    mergeCommands p rename (Members.put (rename name) spec commands) rest

/-- Merges a source: what is there wins. -/
def mergeSource (parent child : RawManifest) : RawManifest where
  metadata := Value.mergeMembers .keepExisting parent.metadata child.metadata
  commands := mergeCommands .keepExisting id parent.commands child.commands

/-- Merges a target under a namespace: the target wins. Of its metadata only the state defaults
come along, as gaps are filled. -/
def mergeTarget (parent child : RawManifest) (nspace : String) : RawManifest where
  metadata :=
    match Members.get? "stateDefaults" child.metadata with
    | none => parent.metadata
    | some defaults =>
      let existing := (Members.get? "stateDefaults" parent.metadata).getD (.object [])
      Members.put "stateDefaults" (existing.merge .keepExisting defaults) parent.metadata
  commands := mergeCommands .takeIncoming (fun name => nspace ++ "/" ++ name)
    parent.commands child.commands

/-- The directory that a link leads to, unless it is one of those being visited. -/
def followLink (tree : FileTree) (visiting : List Location) (directory : Location) (link : String) :
    Except LoadError Location := do
  let target ← Descriptor.resolveLink tree (Location.text directory) link
  if visiting.contains target then .error (.link (.cycle link (Location.text target)))
  else .ok target

/-- The merged form of a directory. A link leads further down, so the height of the tree bounds the
steps; a fault in a subtree makes its link one that cannot be followed. -/
def loadTree (tree : FileTree) : Nat → List Location → Location → Except LoadError RawManifest
  | 0, _, _ => .error (.file .tooManyLinks)
  | fuel + 1, visiting, directory => do
    let contract ← Descriptor.readOrEmpty tree (Location.text directory) .contract
    let commands ← composeCommands tree (Location.text directory)
    let visiting := visiting ++ [directory]
    let own : RawManifest := ⟨Members.erase "targets" (Members.erase "sources" contract), commands⟩
    let child := fun link => do
      let target ← followLink tree visiting directory link
      loadTree tree fuel visiting target
    let withSources := (links "sources" contract).foldl
      (fun raw (_, link) =>
        match child link with
        | .ok source => mergeSource raw source
        | .error _ => raw)
      own
    .ok <| (links "targets" contract).foldl
      (fun raw (label, link) =>
        match child link with
        | .ok target => mergeTarget raw target label
        | .error _ => raw)
      withSources

/-- A command read from its merged form, with its source resolved if its kind has one; nothing if
the form does not fit. -/
def commandOf? (projectRoot name : String) (raw : Value) : Option CommandSpec :=
  let named :=
    match raw with
    | .object members => .object (Members.put "name" (.string name) members)
    | v => v
  (CommandSpec.ofValue? named).map fun c =>
    match c.kind.needsResolvedPath, c.source with
    | true, some source => { c with resolvedPath := some (Path.normalizeJoin projectRoot source) }
    | _, _ => c

/-- A text among the metadata. -/
def text? (raw : RawManifest) (key : String) : Option String :=
  (Members.get? key raw.metadata).bind Value.string?

/-- The manifest of a merged form; commands that do not fit are left out. -/
def build (raw : RawManifest) (root projectRoot : String) : Manifest where
  name := (raw.text? "name").getD ((Path.fileName? root).getD "carapace")
  version := (raw.text? "version").getD "0.0.0"
  description := raw.text? "description"
  prompt := raw.text? "prompt"
  stateDefaults := ((Members.get? "stateDefaults" raw.metadata).bind Value.object?).getD []
  commands := raw.commands.filterMap fun (name, v) =>
    (commandOf? projectRoot name v).map fun c => (name, c)
  root

end RawManifest

namespace Manifest

/-- Loads the tree at a directory. Sources of commands are taken from the project root if one is
given, else from the directory itself. -/
def load (tree : FileTree) (directory : String) (projectRoot : Option String) :
    Except LoadError Manifest := do
  let contract := Path.join directory DescriptorFile.contract.fileName
  if !tree.isFile contract then .error (.missingDescriptor contract)
  else
    match tree.canonical directory with
    | .error cause => .error (.file cause)
    | .ok location =>
      let root := Location.text location
      let project :=
        match projectRoot with
        | some p => if Path.isAbsolute p then p else Path.normalizeJoin root p
        | none => root
      let raw ← RawManifest.loadTree tree (tree.height + 2) [] location
      .ok (raw.build root project)

end Manifest

end CommandContract
