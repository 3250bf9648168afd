import CommandContract.Blob.Normalize
import CommandContract.Parameter.Spec
import CommandContract.Parameter.Type
import CommandContract.State

set_option autoImplicit false

/-!
# Validation of arguments

Given keys take their declared spelling; missing required parameters are filled from the state;
then every value is brought into the normal form of the first member of its declared union that
accepts it, and checked against the declared choices and bounds. The result stands in declared
order.
-/
namespace CommandContract

inductive ValidationError where
  | unknownParameter (key : String)
  | missingRequired (names : List String)
  | unknownType (parameter type : String)
  | typeMismatch (parameter expected got : String)
  | notAllowed (parameter value : String) (allowed : List String)
  | outOfRange (parameter bound value : String)
  | blob (parameter : String) (cause : Blob.Error)

def ValidationError.message : ValidationError → String
  | unknownParameter key => "Unknown parameter: '" ++ key ++ "'"
  | missingRequired names => "Missing required parameters: " ++ Text.joinWith ", " names
  | unknownType parameter type =>
    "Parameter '" ++ parameter ++ "' declares unknown type '" ++ type ++ "'"
  | typeMismatch parameter expected got =>
    "Invalid type for parameter '" ++ parameter ++ "': expected " ++ expected ++ ", got " ++ got
  | notAllowed parameter value allowed =>
    "Invalid value for parameter '" ++ parameter ++ "': " ++ value ++ " (allowed: " ++
      Text.joinWith ", " allowed ++ ")"
  | outOfRange parameter bound value =>
    "Parameter '" ++ parameter ++ "' must be " ++ bound ++ ", got " ++ value
  | blob parameter cause => "Blob parameter '" ++ parameter ++ "' " ++ cause.message

namespace Validation

/-! ## One value -/

/-- Numbers by quantity, other values by equality. -/
def sameChoice : Value → Value → Bool
  | .number a, .number b => a.sameQuantity b
  | a, b => a.same b

/-- Strings as they are, other values as compact JSON. -/
def shownValue : Value → String
  | .string s => s
  | v => v.compact

/-- Bounds are written without an exponent, and without a point when they are integral. -/
def shownBound (x : Binary64) : String :=
  if x.isIntegral && x.units.natAbs < pow10 15 * Binary64.one then toString x.truncate
  else String.ofList ((Decimal.shortest .up x).positional false)

def checkChoice (name : String) (spec : ParameterSpec) (v : Value) : Except ValidationError Unit :=
  match spec.allowed with
  | none => .ok ()
  | some allowed =>
    if allowed.any (sameChoice · v) then .ok ()
    else .error (.notAllowed name (shownValue v) (allowed.map shownValue))

def checkRange (name : String) (spec : ParameterSpec) (v : Value) : Except ValidationError Unit :=
  match v with
  | .number n =>
    let x := n.toBinary
    match spec.min.filter (x.lt ·), spec.max.filter (·.lt x) with
    | some low, _ => .error (.outOfRange name ("at least " ++ shownBound low) (shownValue v))
    | none, some high => .error (.outOfRange name ("at most " ++ shownBound high) (shownValue v))
    | none, none => .ok ()
  | _ => .ok ()

/-- The normal form under one member of the union. -/
def coerceTo (tree : FileTree) (name : String) (spec : ParameterSpec) (type : ParameterType)
    (v : Value) : Except ValidationError Value :=
  if type = .blob then
    match Blob.normalize tree spec.constraints v with
    | .ok w => .ok w
    | .error cause => .error (.blob name cause)
  else
    match type.coerce v with
    | .ok w => .ok w
    | .error e => .error (.typeMismatch name type.name e.message)

def normalizeValue (tree : FileTree) (name : String) (spec : ParameterSpec) (v : Value) :
    Except ValidationError Value :=
  match ParameterType.union spec.declaredType with
  | .error type => .error (.unknownType name type)
  | .ok members =>
    match members.find? (·.accepts v) with
    | none => .error (.typeMismatch name spec.declaredType v.kind)
    | some type => do
      let w ← coerceTo tree name spec type v
      checkChoice name spec w
      if type.isNumeric then checkRange name spec w
      .ok w

/-! ## All arguments -/

/-- Gives keys their declared spelling. -/
def canonicalKeys (params : Parameters) (args : Members Value) :
    Except ValidationError (Members Value) := do
  let pairs ← args.mapM fun (key, v) =>
    match params.find? key with
    | some (declared, _) => .ok (declared, v)
    | none => .error (.unknownParameter key)
  .ok (Members.ofPairs pairs)

def hasArgument (args : Members Value) (name : String) : Bool :=
  ((Members.get? name args).filter (!·.isNull)).isSome

/-- What the state gives for a required parameter. -/
def stateValue? (state : State) (spec : ParameterSpec) : Option Value :=
  if spec.isRequired then spec.stateFallback.bind state.value? else none

/-- Fills required parameters that are missing or `null` from the state. -/
def fillFromState (state : State) (params : Parameters) (args : Members Value) : Members Value :=
  params.foldl
    (fun args (name, spec) =>
      if hasArgument args name then args
      else
        match stateValue? state spec with
        | some v => Members.put name v args
        | none => args)
    args

/-- The names of required parameters without a value. -/
def missing (params : Parameters) (given : Members Value) : List String :=
  (params.required.filter fun p => !hasArgument given p.1).map (·.1)

/-- The argument of one parameter: its normal form, or its default when it is absent. -/
def argumentOf (tree : FileTree) (given : Members Value) (name : String) (spec : ParameterSpec) :
    Except ValidationError (Option Value) :=
  match Members.get? name given with
  | some .null => .ok (some .null)
  | some v => (normalizeValue tree name spec v).map some
  | none => .ok spec.default

/-- The arguments in declared order. -/
def arrange (tree : FileTree) (given : Members Value) :
    Parameters → Except ValidationError (Members Value)
  | [] => .ok []
  | (name, spec) :: params => do
    let first ← argumentOf tree given name spec
    let rest ← arrange tree given params
    .ok (match first with
      | some v => (name, v) :: rest
      | none => rest)

def validate (tree : FileTree) (params : Parameters) (args : Members Value) :
    Except ValidationError (Members Value) := do
  let given ← canonicalKeys params args
  match missing params given with
  | [] => arrange tree given params
  | names => .error (.missingRequired names)

/-- Fills from the state, then validates. -/
def prepare (tree : FileTree) (state : State) (params : Parameters) (args : Members Value) :
    Except ValidationError (Members Value) := do
  let given ← canonicalKeys params args
  validate tree params (fillFromState state params given)

end Validation

end CommandContract
