import CommandContract.Json.Fields

set_option autoImplicit false

/-!
# Blob records

The normal form of a blob argument, and the constraints that a parameter may declare for it.
-/
namespace CommandContract

inductive BlobKind where
  | dataUrl
  | base64
  | path
  deriving DecidableEq, Repr

structure BlobRecord where
  kind : BlobKind
  data : Option String
  path : Option String
  mimeType : Option String
  size : Option Nat
  deriving DecidableEq, Repr

structure BlobConstraints where
  /-- bytes, or a text such as `10MB` -/
  maxSize : Option Value
  allowedTypes : List String
  allowedExtensions : List String

namespace BlobKind

def name : BlobKind → String
  | dataUrl => "dataUrl"
  | base64 => "base64"
  | path => "path"

def ofName? : String → Option BlobKind
  | "dataUrl" => some dataUrl
  | "base64" => some base64
  | "path" => some path
  | _ => none

end BlobKind

namespace BlobRecord

def fieldNames : List String := ["type", "data", "path", "mimeType", "size"]

def ofValue? (v : Value) : Option BlobRecord := do
  let ms ← Fields.ofValue? fieldNames v
  let kind ← Fields.required "type" (fun v => (Fields.choice? v).bind BlobKind.ofName?) ms
  let data ← Fields.optional "data" Value.string? ms
  let path ← Fields.optional "path" Value.string? ms
  let mimeType ← Fields.optional "mimeType" Value.string? ms
  let size ← Fields.optional "size" Value.unsigned? ms
  some ⟨kind, data, path, mimeType, size⟩

def toValue (r : BlobRecord) : Value :=
  .object <|
    [("type", .string r.kind.name)] ++ Fields.present "data" .string r.data ++
      Fields.present "path" .string r.path ++ Fields.present "mimeType" .string r.mimeType ++
      Fields.present "size" Value.ofNat r.size

end BlobRecord

namespace BlobConstraints

def fieldNames : List String := ["maxSize", "allowedTypes", "allowedExtensions"]

def ofValue? (v : Value) : Option BlobConstraints := do
  let ms ← Fields.ofValue? fieldNames v
  let maxSize ← Fields.optional "maxSize" some ms
  let allowedTypes ← Fields.withDefault "allowedTypes" [] (Fields.list? Value.string?) ms
  let allowedExtensions ← Fields.withDefault "allowedExtensions" [] (Fields.list? Value.string?) ms
  some ⟨maxSize, allowedTypes, allowedExtensions⟩

def toValue (c : BlobConstraints) : Value :=
  .object <|
    Fields.present "maxSize" id c.maxSize ++
      Fields.nonEmpty "allowedTypes" (c.allowedTypes.map .string) ++
      Fields.nonEmpty "allowedExtensions" (c.allowedExtensions.map .string)

end BlobConstraints

end CommandContract
