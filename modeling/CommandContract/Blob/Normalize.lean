import CommandContract.Blob.Base64
import CommandContract.Blob.Record
import CommandContract.FileTree
import CommandContract.Json.Printer
import CommandContract.Number.Numeral
import CommandContract.Text.Blank
import CommandContract.Text.DecimalDigit
import CommandContract.Text.LetterCase

set_option autoImplicit false

/-!
# Normal forms of blobs

A text is a data URL if it begins with `data:`, else base64 if it is long enough and decodes, else
a path, of which the file tree tells the size. A record that is already normal is checked again.
Constraints bound the size, the media type and the extension.
-/
namespace CommandContract.Blob

inductive Error where
  | notDataUrl
  | undecodable (cause : Base64.Error)
  | notBlob
  | notRecord
  | missingData
  | missingPath
  | invalidLimit (limit : Value)
  | tooLarge (limit : Value) (size : Nat)
  | typeNotAllowed (mime : String) (allowed : List String)
  | extensionNotAllowed (extension : String) (allowed : List String)

/-- How messages name a limit that is no size. -/
def shownLimit : Value → String
  | .string s => "'" ++ s ++ "'"
  | v => v.compact

def describeLimit : Value → String
  | .string s => s.trimBlank
  | v => v.compact ++ " bytes"

def Error.message : Error → String
  | notDataUrl => "is not a valid data URL (expected data:<mime>;base64,<data>)"
  | undecodable cause => "has an undecodable data URL payload: " ++ cause.message
  | notBlob => "must be a data URL, base64 string or path"
  | notRecord => "is not a valid blob record: a field is missing or of the wrong type"
  | missingData => "record is missing its data"
  | missingPath => "record is missing its path"
  | invalidLimit limit => "has an invalid maxSize constraint: " ++ shownLimit limit
  | tooLarge limit size =>
    "exceeds maximum size of " ++ describeLimit limit ++ " (" ++ toString size ++ " bytes)"
  | typeNotAllowed mime allowed =>
    "has type '" ++ (if mime.isEmpty then "unknown" else mime) ++ "', allowed types: " ++
      Text.joinWith ", " allowed
  | extensionNotAllowed extension allowed =>
    "has extension '" ++ extension ++ "', allowed extensions: " ++ Text.joinWith ", " allowed

/-! ## Classification -/

/-- The least length of base64 without a data URL around it. -/
def minBareBase64 : Nat := 16

def bytesOf (cs : List Char) : List Nat := (String.ofList cs).toUTF8.toList.map UInt8.toNat

def isUrlPart (c : Char) : Bool := !(c = ';' || c = ',')

/-- The data behind the first `;base64,` that follows the parameters, each a semicolon and at least
one other character. -/
def dataPart? : Nat → List Char → Option (List Char)
  | 0, _ => none
  | fuel + 1, cs =>
    match Text.dropLeading? ";base64,".toList cs with
    | some data => some data
    | none =>
      match cs with
      | ';' :: c :: rest => if isUrlPart c then dataPart? fuel (rest.dropWhile isUrlPart) else none
      | _ => none

/-- Media type and data of a data URL. -/
def dataUrlParts? (cs : List Char) : Option (List Char × List Char) := do
  let rest ← Text.dropLeading? "data:".toList cs
  let (mime, rest) := rest.span isUrlPart
  let data ← dataPart? (cs.length + 1) rest
  some (mime, data)

def classifyDataUrl (cs : List Char) : Except Error BlobRecord :=
  match dataUrlParts? cs with
  | none => .error .notDataUrl
  | some (mime, data) =>
    match Base64.decode (bytesOf (Text.trim data)) with
    | .error cause => .error (.undecodable cause)
    | .ok bytes =>
      let mime := String.ofList (Text.trim mime)
      let mime := if mime.isEmpty then "text/plain" else Text.asciiLower mime
      .ok ⟨.dataUrl, some (String.ofList data), none, some mime, some bytes.length⟩

def isBase64Symbol (c : Char) : Bool := c.isAlphanum || c = '+' || c = '/'

/-- Symbols, at least one, and at most two pads. -/
def hasBase64Shape (cs : List Char) : Bool :=
  let (symbols, pads) := cs.span isBase64Symbol
  !symbols.isEmpty && pads.length ≤ 2 && pads.all (· = '=')

/-- The decoded length of a text that reads as base64 by itself. -/
def bareBase64Size? (cs : List Char) : Option Nat :=
  let length := Text.byteLength cs
  if length < minBareBase64 || length % 4 ≠ 0 || !hasBase64Shape cs then none
  else (Base64.decode (bytesOf cs)).toOption.map List.length

/-- The media type that an extension stands for. -/
def mimeOfExtension (extension : String) : String :=
  match Text.asciiLower extension with
  | "txt" => "text/plain"
  | "text" => "text/plain"
  | "log" => "text/plain"
  | "md" => "text/markdown"
  | "markdown" => "text/markdown"
  | "csv" => "text/csv"
  | "html" => "text/html"
  | "htm" => "text/html"
  | "json" => "application/json"
  | "xml" => "application/xml"
  | "pdf" => "application/pdf"
  | "zip" => "application/zip"
  | "png" => "image/png"
  | "jpg" => "image/jpeg"
  | "jpeg" => "image/jpeg"
  | "gif" => "image/gif"
  | "webp" => "image/webp"
  | "svg" => "image/svg+xml"
  | "wav" => "audio/wav"
  | "mp3" => "audio/mpeg"
  | "mp4" => "video/mp4"
  | _ => "application/octet-stream"

def mimeOfPath? (path : String) : Option String := (Path.extension? path).map mimeOfExtension

def pathRecord (tree : FileTree) (path : String) : BlobRecord :=
  ⟨.path, none, some path, mimeOfPath? path, tree.size? path⟩

def classify (tree : FileTree) (text : String) : Except Error BlobRecord :=
  let cs := Text.trim text.toList
  if (Text.dropLeading? "data:".toList cs).isSome then classifyDataUrl cs
  else
    match bareBase64Size? cs with
    | some size => .ok ⟨.base64, some (String.ofList cs), none, none, some size⟩
    | none => .ok (pathRecord tree (String.ofList cs))

/-! ## Constraints -/

def unsignedMax : Nat := Number.unsignedMax.toNat

/-- The integer part of a quantity that is not negative, at most 64 bits. -/
def wholeSize (units : Int) : Nat := min (units / (Binary64.one : Int)).toNat unsignedMax

/-- Bytes in one unit of size. A unit is recognised in any case, also by the characters beyond
ASCII that fold to its letters, but those stand for single bytes. -/
def unitSize? (unit : List Char) : Option Nat :=
  let folded := unit.map fun c => if c = '\u212a' then 'k' else c.toLower
  if [[], ['b'], ['k', 'b'], ['m', 'b'], ['g', 'b']].contains folded then
    match unit.map Char.toLower with
    | ['k', 'b'] => some (pow2 10)
    | ['m', 'b'] => some (pow2 20)
    | ['g', 'b'] => some (pow2 30)
    | _ => some 1
  else none

/-- Amount and unit of a text such as `1.5 MB`. -/
def sizeParts? (cs : List Char) : Option (List Char × Nat) := do
  let (whole, rest) := (Text.trim cs).span Text.isDecimalDigit
  let (fraction, rest) ←
    match rest with
    | '.' :: rest =>
      let (digits, rest) := rest.span Text.isDecimalDigit
      if digits.isEmpty then none else some ('.' :: digits, rest)
    | rest => some ([], rest)
  if whole.isEmpty then none
  else do
    let factor ← unitSize? (Text.trimStart rest)
    some (whole ++ fraction, factor)

/-- Bytes from a number or a text; units are powers of two. -/
def parseSize : Value → Except Error Nat
  | .number (.int n) => if n < 0 then .error (.invalidLimit (.int n)) else .ok n.toNat
  | .number (.float x) =>
    if x.units < 0 then .error (.invalidLimit (.number (.float x))) else .ok (wholeSize x.units)
  | .string s =>
    match sizeParts? s.toList with
    | none => .error (.invalidLimit (.string s))
    | some (amount, factor) =>
      match Decimal.ofText? amount with
      | none => .error (.invalidLimit (.string s))
      | some d =>
        match d.toBinary? with
        | some x => .ok (wholeSize (x.units * factor))
        | none => .ok unsignedMax
  | v => .error (.invalidLimit v)

/-- A pattern names a media type, or all of a main type. -/
def mimeMatches (pattern mime : String) : Bool :=
  let pattern := (Text.asciiLower pattern.trimBlank).toList
  let mime := (Text.asciiLower mime).toList
  match Text.dropTrailing? ['/', '*'] pattern with
  | some major => (Text.splitOn '/' mime).head? = some major
  | none => pattern = mime

def checkSize (r : BlobRecord) (c : BlobConstraints) : Except Error Unit :=
  match c.maxSize with
  | none => .ok ()
  | some limit => do
    let most ← parseSize limit
    match r.size with
    | some size => if most < size then .error (.tooLarge limit size) else .ok ()
    | none => .ok ()

def checkType (r : BlobRecord) (c : BlobConstraints) : Except Error Unit :=
  let mime := r.mimeType.getD ""
  if c.allowedTypes.isEmpty || c.allowedTypes.any (mimeMatches · mime) then .ok ()
  else .error (.typeNotAllowed mime c.allowedTypes)

def checkExtension (r : BlobRecord) (c : BlobConstraints) : Except Error Unit :=
  match r.path with
  | none => .ok ()
  | some path =>
    let extension := Text.asciiLower ((Path.extension? path).getD "")
    let allowed := c.allowedExtensions.any fun a =>
      Text.sameLetters (String.ofList (a.toList.dropWhile (· = '.'))) extension
    if c.allowedExtensions.isEmpty || (!extension.isEmpty && allowed) then .ok ()
    else .error (.extensionNotAllowed extension c.allowedExtensions)

def check (r : BlobRecord) (c : BlobConstraints) : Except Error Unit := do
  checkSize r c
  checkType r c
  checkExtension r c

/-! ## Normal form -/

/-- Checks a record that arrived as one; a path is looked at anew. -/
def recheck (tree : FileTree) (v : Value) : Except Error BlobRecord :=
  match BlobRecord.ofValue? v with
  | none => .error .notRecord
  | some r =>
    match r.kind with
    | .path =>
      match r.path with
      | none => .error .missingPath
      | some path =>
        let fresh := pathRecord tree path
        .ok { fresh with mimeType := fresh.mimeType <|> r.mimeType }
    | _ => if r.data.isNone then .error .missingData else .ok r

def record (tree : FileTree) : Value → Except Error BlobRecord
  | .string s => classify tree s
  | .object members => recheck tree (.object members)
  | _ => .error .notBlob

def normalize (tree : FileTree) (constraints : Option BlobConstraints) (v : Value) :
    Except Error Value := do
  let r ← record tree v
  match constraints with
  | some c => check r c
  | none => .ok ()
  .ok r.toValue

end CommandContract.Blob
