import CommandContract.Command.Spec
import CommandContract.State
import CommandContract.Template

set_option autoImplicit false

/-!
# Side effects

The declared changes of the session state after a command: values are set, keys are cleared, and
more keys are cleared under conditions. Everything is evaluated before anything is written, so a
faulty entry leaves the state as it was.
-/
namespace CommandContract

/-- What templates and conditions of effects see: the arguments, and the output above them. -/
def effectContext (args : Members Value) (output : Value) : Value :=
  .object (Members.put "output" output args)

/-- Numbers by quantity; a string equals a value of another kind that reads like it. -/
def looselySame (a b : Value) : Bool :=
  match a, b with
  | .number m, .number n => m.sameQuantity n
  | .string s, .string t => s == t
  | .string s, v => v.text == s
  | v, .string s => v.text == s
  | a, b => a.same b

namespace StateAssignment

/-- The value to be set; nothing if the argument it is taken from is absent. -/
def value? (args : Members Value) (context : Value) (a : StateAssignment) :
    Except TemplateError (Option Value) :=
  match a.parameter, a.template with
  | some name, _ => .ok (Members.get? name args)
  | none, some template => (Template.render template context).map fun s => some (.string s)
  | none, none => .ok a.value

end StateAssignment

namespace ConditionalClear

def argumentFits (args : Members Value) (c : ConditionalClear) : Bool :=
  match c.parameter, c.equals with
  | some name, some expected => (Members.get? name args).any (looselySame · expected)
  | some name, none => (Members.get? name args).any Condition.truthy
  | none, _ => true

/-- The keys to be cleared. The condition is evaluated in any case. -/
def cleared (args : Members Value) (context : Value) (c : ConditionalClear) :
    Except TemplateError (List String) := do
  let holds ← match c.condition with
    | some condition => Condition.check condition context
    | none => .ok true
  .ok (if c.argumentFits args && holds then c.keys else [])

end ConditionalClear

/-- Changes of a state that are ready to be made. -/
structure StateChange where
  sets : List (String × Value)
  clears : List String

/-- Sets first, then clears. -/
def StateChange.apply (c : StateChange) (state : State) : State :=
  c.clears.foldl State.remove (c.sets.foldl (fun s (key, v) => s.set key v) state)

namespace SideEffects

def sets (args : Members Value) (context : Value) :
    Members StateAssignment → Except TemplateError (List (String × Value))
  | [] => .ok []
  | (key, a) :: rest => do
    let v ← a.value? args context
    let rest ← sets args context rest
    .ok (match v with
      | some v => (key, v) :: rest
      | none => rest)

def conditionalKeys (args : Members Value) (context : Value) :
    List ConditionalClear → Except TemplateError (List String)
  | [] => .ok []
  | c :: rest => do
    let keys ← c.cleared args context
    let rest ← conditionalKeys args context rest
    .ok (keys ++ rest)

/-- Evaluates effects, which changes nothing yet. -/
def change (e : SideEffects) (args : Members Value) (output : Value) :
    Except TemplateError StateChange := do
  let context := effectContext args output
  let sets ← sets args context e.assignments
  let keys ← conditionalKeys args context e.conditionalClears
  .ok ⟨sets, e.clears ++ keys⟩

def apply (e : SideEffects) (args : Members Value) (output : Value) (state : State) :
    Except TemplateError State :=
  (e.change args output).map (·.apply state)

end SideEffects

end CommandContract
