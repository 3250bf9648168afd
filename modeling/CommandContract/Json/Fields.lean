import CommandContract.Json.Value

set_option autoImplicit false

/-!
# Fields of records

A record is read from an object, by the names of its fields, or from an array, by their order. A
field may be required, have a default when it is absent, or be optional, in which case `null`
counts as absent too.
-/
namespace CommandContract.Fields

/-- The fields of a record given as an object, or as an array of the first fields. -/
def ofValue? (names : List String) : Value → Option (Members Value)
  | .object members => some members
  | .array items => if items.length ≤ names.length then some (names.zip items) else none
  | _ => none

/-- The same, with more items than fields allowed: those behind the last field do not count. -/
def leading? (names : List String) : Value → Option (Members Value)
  | .object members => some members
  | .array items => some (names.zip items)
  | _ => none

def required {α : Type} (key : String) (read : Value → Option α) (ms : Members Value) : Option α :=
  (Members.get? key ms).bind read

def withDefault {α : Type} (key : String) (default : α) (read : Value → Option α)
    (ms : Members Value) : Option α :=
  match Members.get? key ms with
  | none => some default
  | some v => read v

def optional {α : Type} (key : String) (read : Value → Option α) (ms : Members Value) :
    Option (Option α) :=
  match Members.get? key ms with
  | none => some none
  | some .null => some none
  | some v => (read v).map some

def bool? : Value → Option Bool
  | .bool b => some b
  | _ => none

def binary? : Value → Option Binary64
  | .number n => some n.toBinary
  | _ => none

def list? {α : Type} (read : Value → Option α) : Value → Option (List α)
  | .array items => items.mapM read
  | _ => none

def members? {α : Type} (read : Value → Option α) : Value → Option (Members α)
  | .object members => members.mapM fun (k, v) => (read v).map fun a => (k, a)
  | _ => none

/-- The name of a choice without content, which may also stand as an object whose only member is
`null`. -/
def choice? : Value → Option String
  | .string s => some s
  | .object [(name, .null)] => some name
  | _ => none

/-- The members that are no declared fields. -/
def unknown (names : List String) (ms : Members Value) : Members Value :=
  ms.filter fun (k, _) => !names.contains k

/-! ## Writing -/

def present {α : Type} (key : String) (write : α → Value) : Option α → List (String × Value)
  | some a => [(key, write a)]
  | none => []

def strings (items : List String) : Value := .array (items.map .string)

/-- A list that is left out when it is empty. -/
def nonEmpty (key : String) (items : List Value) : List (String × Value) :=
  if items.isEmpty then [] else [(key, .array items)]

end CommandContract.Fields
