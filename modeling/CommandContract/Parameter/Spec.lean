import CommandContract.Blob.Record
import CommandContract.Text.LetterCase

set_option autoImplicit false

/-!
# Declared parameters

What a descriptor says about one parameter. Members of the descriptor that are no fields are kept
in `extra`, in their order, and written again behind the fields.
-/
namespace CommandContract

/-- Wraps a lone argument: the template `chosen` applies if the condition holds or is absent, else
`otherwise`. -/
structure Transform where
  condition : Option String
  chosen : Value
  otherwise : Option Value

structure ParameterSpec where
  declaredType : String
  isRequired : Bool
  default : Option Value
  allowed : Option (List Value)
  min : Option Binary64
  max : Option Binary64
  /-- the state key that fills a missing required parameter -/
  stateFallback : Option String
  transform : Option Transform
  constraints : Option BlobConstraints
  description : Option String
  extra : Members Value

namespace Transform

def fieldNames : List String := ["when", "then", "else"]

def ofValue? (v : Value) : Option Transform := do
  let ms ← Fields.ofValue? fieldNames v
  let condition ← Fields.optional "when" Value.string? ms
  let chosen ← Fields.required "then" some ms
  let otherwise ← Fields.optional "else" some ms
  some ⟨condition, chosen, otherwise⟩

def toValue (t : Transform) : Value :=
  .object <|
    Fields.present "when" .string t.condition ++ [("then", t.chosen)] ++
      Fields.present "else" id t.otherwise

end Transform

namespace ParameterSpec

def ofType (declaredType : String) : ParameterSpec where
  declaredType
  isRequired := false
  default := none
  allowed := none
  min := none
  max := none
  stateFallback := none
  transform := none
  constraints := none
  description := none
  extra := []

def fieldNames : List String := [
  "type", "required", "default", "enum", "min", "max", "runtimeFallback", "transform",
  "constraints", "description"]

def ofMembers? (ms : Members Value) : Option ParameterSpec := do
  let declaredType ← Fields.withDefault "type" "string" Value.string? ms
  let isRequired ← Fields.withDefault "required" false Fields.bool? ms
  let default ← Fields.optional "default" some ms
  let allowed ← Fields.optional "enum" Value.array? ms
  let min ← Fields.optional "min" Fields.binary? ms
  let max ← Fields.optional "max" Fields.binary? ms
  let stateFallback ← Fields.optional "runtimeFallback" Value.string? ms
  let transform ← Fields.optional "transform" Transform.ofValue? ms
  let constraints ← Fields.optional "constraints" BlobConstraints.ofValue? ms
  let description ← Fields.optional "description" Value.string? ms
  some {
    declaredType, isRequired, default, allowed, min, max, stateFallback, transform, constraints,
    description, extra := Fields.unknown fieldNames ms }

def ofValue? (v : Value) : Option ParameterSpec := v.object?.bind ofMembers?

def binary (x : Binary64) : Value := .number (.float x)

def toValue (p : ParameterSpec) : Value :=
  .object <|
    [("type", .string p.declaredType), ("required", .bool p.isRequired)] ++
      Fields.present "default" id p.default ++ Fields.present "enum" .array p.allowed ++
      Fields.present "min" binary p.min ++ Fields.present "max" binary p.max ++
      Fields.present "runtimeFallback" .string p.stateFallback ++
      Fields.present "transform" Transform.toValue p.transform ++
      Fields.present "constraints" BlobConstraints.toValue p.constraints ++
      Fields.present "description" .string p.description ++ p.extra

end ParameterSpec

/-- Parameters in declared order. -/
abbrev Parameters := Members ParameterSpec

/-- The declared spelling of a key: exact, else the first that differs in ASCII case only. -/
def Parameters.find? (key : String) (params : Parameters) : Option (String × ParameterSpec) :=
  match Members.get? key params with
  | some spec => some (key, spec)
  | none => List.find? (fun p => Text.sameLetters p.1 key) params

def Parameters.required (params : Parameters) : List (String × ParameterSpec) :=
  List.filter (fun p => p.2.isRequired) params

end CommandContract
