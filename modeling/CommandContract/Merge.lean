import CommandContract.Json.Value

set_option autoImplicit false

/-!
# Merging values

Objects merge member by member; any other conflict is decided by a precedence. A `null` that comes
in changes nothing, and a `null` that is there gives way. Arrays are leaves.
-/
namespace CommandContract

inductive Precedence where
  /-- What is there stays; what comes in fills gaps. -/
  | keepExisting
  /-- What comes in replaces. -/
  | takeIncoming
  deriving DecidableEq, Repr

def Precedence.choose (p : Precedence) (existing incoming : Value) : Value :=
  match p with
  | keepExisting => existing
  | takeIncoming => incoming

namespace Value

mutual

def merge (p : Precedence) (base : Value) : Value → Value
  | null => base
  | object members =>
    match base with
    | null => object members
    | object existing => object (mergeMembers p existing members)
    | base => p.choose base (object members)
  | incoming => if base.isNull then incoming else p.choose base incoming

/-- Merges members into those of an object, one after the other. -/
def mergeMembers (p : Precedence) (base : Members Value) : List (String × Value) → Members Value
  | [] => base
  | (key, incoming) :: rest =>
    let next :=
      match Members.get? key base with
      | some existing => Members.put key (merge p existing incoming) base
      | none => if incoming.isNull then base else Members.put key incoming base
    mergeMembers p next rest

end

end Value

end CommandContract
