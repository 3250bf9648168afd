import CommandContract.Manifest.Basic
import CommandContract.State

set_option autoImplicit false

/-!
# Invocations

What a handler may look at. The arguments are in their normal form already; the state can be read
but not written.
-/
namespace CommandContract

structure Invocation where
  spec : CommandSpec
  args : Members Value
  manifest : Manifest
  state : State

namespace Invocation

def arg? (i : Invocation) (name : String) : Option Value := Members.get? name i.args

def text? (i : Invocation) (name : String) : Option String := (i.arg? name).bind Value.string?

end Invocation

end CommandContract
