import CommandContract.Json.Value

set_option autoImplicit false

/-!
# Session state

Named values that live as long as a session. Only side effects write to them.
-/
namespace CommandContract

structure State where
  values : Members Value
  deriving Inhabited

namespace State

def get? (state : State) (key : String) : Option Value := Members.get? key state.values

/-- The value of a key, if there is one other than `null`. -/
def value? (state : State) (key : String) : Option Value :=
  (state.get? key).filter (!·.isNull)

def hasValue (state : State) (key : String) : Bool := (state.value? key).isSome

def set (state : State) (key : String) (value : Value) : State :=
  ⟨Members.put key value state.values⟩

def remove (state : State) (key : String) : State := ⟨Members.erase key state.values⟩

def size (state : State) : Nat := state.values.length

def keys (state : State) : List String := Members.keys state.values

def snapshot (state : State) : Value := .object state.values

end State

end CommandContract
