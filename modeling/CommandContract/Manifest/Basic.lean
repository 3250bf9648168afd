import CommandContract.Command.Codec
import CommandContract.Digest.Sha256
import CommandContract.Json.Printer

set_option autoImplicit false

/-!
# Manifests

All commands of a descriptor tree under their full names, with the metadata of the tree.
-/
namespace CommandContract

structure Manifest where
  name : String
  version : String
  description : Option String
  prompt : Option String
  stateDefaults : Members Value
  commands : Members CommandSpec
  /-- the directory it was loaded from -/
  root : String

namespace Manifest

def empty (name : String) : Manifest := ⟨name, "0.0.0", none, none, [], [], ""⟩

def withCommand (m : Manifest) (c : CommandSpec) : Manifest :=
  { m with commands := Members.put c.name c m.commands }

def get? (m : Manifest) (name : String) : Option CommandSpec := Members.get? name m.commands

def has (m : Manifest) (name : String) : Bool := (m.get? name).isSome

def commandNames (m : Manifest) : List String := Members.keys m.commands

def toValue (m : Manifest) : Value :=
  .object <|
    [("name", .string m.name), ("version", .string m.version)] ++
      Fields.present "description" .string m.description ++
      Fields.present "prompt" .string m.prompt ++
      [("stateDefaults", .object m.stateDefaults),
        ("commands", .object (m.commands.map fun (k, c) => (k, c.toValue)))]

/-- The digest of the compact text of the manifest. -/
def fingerprint (m : Manifest) : String := Sha256.ofText m.toValue.compact

end Manifest

end CommandContract
