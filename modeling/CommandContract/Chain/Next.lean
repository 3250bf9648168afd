import CommandContract.Command.Call

set_option autoImplicit false

/-!
# The command that runs next

The first rule whose condition holds, or that has none, names the next command and gives templates
for its arguments. A rule that cannot be followed is a fault, not a reason to try another one.
-/
namespace CommandContract

inductive ConstructionFault where
  | template (cause : TemplateError)
  | unknownCommand (name : String)
  /-- a rule gives an argument that its command does not declare -/
  | unknownParameter (key : String)

def ConstructionFault.message (f : ConstructionFault) : String :=
  "Failed to construct next command: " ++
    (match f with
      | template cause => cause.message
      | unknownCommand name => unknownCommandMessage name
      | unknownParameter key => (ValidationError.unknownParameter key).message)

namespace Chain

/-- A name as it is declared, else under the namespace of the command that declares it. -/
def resolveName? (m : Manifest) (c : CommandSpec) (target : String) : Option String :=
  if m.has target then some target
  else
    c.namespace?.bind fun nspace =>
      let qualified := nspace ++ "/" ++ target
      if m.has qualified then some qualified else none

def applies (context : Value) (r : NextRule) : Except TemplateError Bool :=
  match r.condition with
  | some condition => Condition.check condition context
  | none => .ok true

/-- The call that a rule makes. -/
def callOf (m : Manifest) (c : CommandSpec) (context : Value) (target : String) (r : NextRule) :
    Except ConstructionFault Call :=
  match resolveName? m c target with
  | none => .error (.unknownCommand target)
  | some name =>
    match Template.renderMembers context r.arguments with
    | .ok args => .ok ⟨name, Members.ofPairs args⟩
    | .error e => .error (.template e)

def firstRule (m : Manifest) (c : CommandSpec) (context : Value) :
    List (String × NextRule) → Except ConstructionFault (Option Call)
  | [] => .ok none
  | (target, r) :: rest =>
    match applies context r with
    | .error e => .error (.template e)
    | .ok false => firstRule m c context rest
    | .ok true => (callOf m c context target r).map some

def next (m : Manifest) (c : CommandSpec) (context : Value) :
    Except ConstructionFault (Option Call) :=
  firstRule m c context (c.next.getD [])

end Chain

end CommandContract
