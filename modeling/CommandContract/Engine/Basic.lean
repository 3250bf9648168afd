import CommandContract.Config.Load
import CommandContract.Handler.Registry
import CommandContract.Manifest.Load

set_option autoImplicit false

/-!
# Engines

What a host holds for its whole life: the manifest, the handlers bound to its commands, and the
configuration. The state of a session stays with its owner.
-/
namespace CommandContract

structure Engine where
  manifest : Manifest
  registry : Registry
  config : Config

/-- What changes from one run to the next. -/
structure Session where
  tree : FileTree
  state : State

namespace Engine

/-- Binds the handlers of the host in order. -/
def hostRegistry (hosts : List (String × (Invocation → Except String Value))) : Registry :=
  hosts.foldl (fun r (name, answer) => r.bind name (.host answer)) Registry.empty

def builtinRule (c : CommandSpec) : Option Handler := (Builtin.ofSpec? c).map .builtin

def programRule (m : Manifest) (c : CommandSpec) : Option Handler :=
  (Program.ofSpec? m.root c).map .program

/-- Handlers of the host, then built-in ones, then programs if the configuration allows them. -/
def build (m : Manifest) (config : Config) (hosts : List (String × (Invocation → Except String Value)))
    (builtins : Bool) : Engine :=
  let commands := m.commands.map (·.2)
  let own := hostRegistry hosts
  let own := if builtins then own.bindFree builtinRule commands else own
  let own := if config.engine.allowExternal then own.bindFree (programRule m) commands else own
  ⟨m, own, config⟩

/-- The engine of the tree at a directory, without handlers of a host. -/
def load (tree : FileTree) (directory : String) (config : Config) : Except LoadError Engine :=
  (Manifest.load tree directory config.engine.projectRoot).map fun m => build m config [] true

/-- The state that a session begins with. -/
def newState (e : Engine) : State := ⟨e.manifest.stateDefaults⟩

end Engine

end CommandContract
