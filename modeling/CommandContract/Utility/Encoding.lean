import CommandContract.Blob.Base64
import CommandContract.Digest.Md5
import CommandContract.Utility.Task

set_option autoImplicit false

/-!
# Encodings

Bytes in other notations: base 64, digests, and dumps in octal, hexadecimal or characters.
-/
namespace CommandContract.Utility

/-- Pieces of a length, the last one shorter. -/
def piecesOf {α : Type} (length : Nat) : Nat → List α → List (List α)
  | 0, _ => []
  | _ + 1, [] => []
  | fuel + 1, items => items.take length :: piecesOf length fuel (items.drop length)

def wrapped (width : Nat) (text : String) : String :=
  if width = 0 then text
  else unlines ((piecesOf width (text.length + 1) text.toList).map String.ofList)

/-- The whole bytes that symbols spell. -/
def decodePart (symbols : List Nat) : List Nat :=
  let bits := symbols.map fun b => (Base64.bits? b).getD 0
  (piecesOf 4 (bits.length + 1) bits).flatMap fun group =>
    let n := (group ++ List.replicate (4 - group.length) 0).foldl (fun n b => 64 * n + b) 0
    [n / 65536, n / 256 % 256, n % 256].take (group.length * 6 / 8)

def encodeBase64 (c : Call) : Task Unit :=
  withOptions c [flag 'd' "decode", valued 'w' "wrap", flag 'i' "ignore-garbage"] 1 fun o => do
    match o.operands with
    | _ :: extra :: _ => misuse c 1 ("extra operand " ++ quoted extra)
    | operands =>
      let path := operands.headD "-"
      match ← read path with
      | .error cause => refuse c 1 (quotedIfNeeded path ++ ": " ++ cause.reason)
      | .ok text =>
        let bytes := toBytes text
        if o.has 'd' then
          let kept := bytes.filter fun b =>
            b ≠ 10 && (!o.has 'i' || b = Base64.pad || (Base64.bits? b).isSome)
          match Base64.decode kept with
          | .ok decoded => put (ofBytes decoded)
          | .error _ =>
            let whole := kept.takeWhile fun b => (Base64.bits? b).isSome
            put (ofBytes (decodePart whole))
            refuse c 1 "invalid input"
        else
          let width := ((o.value? 'w').bind String.toNat?).getD 76
          put (wrapped width (ofBytes (Base64.encode bytes)))

/-! ## Digests -/

/-- Shows the digests of files in hexadecimal. -/
def showDigests (digest : List Nat → List UInt32) (c : Call) : Task Unit :=
  withOptions c [flag 'b' "binary", flag 't' "text", flag 'z' "zero", longFlag 'g' "tag"] 1 fun o => do
    for path in o.paths do
      match ← read path with
      | .ok text =>
        putLine (String.ofList ((digest (toBytes text)).flatMap Sha256.hexWord) ++ "  " ++ path)
      | .error cause => refuse c 1 (quotedIfNeeded path ++ ": " ++ cause.reason)

/-! ## Dumps -/

def inBase (base width n : Nat) : String :=
  let digits := Nat.toDigits base n
  String.ofList (List.replicate (width - digits.length) '0' ++ digits)

/-- A byte as a character or an escape. -/
def dumpedChar (n : Nat) : String :=
  match n with
  | 0 => "\\0"
  | 7 => "\\a"
  | 8 => "\\b"
  | 9 => "\\t"
  | 10 => "\\n"
  | 11 => "\\v"
  | 12 => "\\f"
  | 13 => "\\r"
  | n => if 32 ≤ n && n < 127 then String.ofList [Char.ofNat n] else inBase 8 3 n

/-- How units of bytes are shown: bytes of a unit, columns, and the text. -/
structure DumpForm where
  size : Nat
  width : Nat
  text : Nat → String

def littleEndian (bytes : List Nat) : Nat := bytes.foldr (fun b n => b + 256 * n) 0

def dumpForm? (kind : String) : Option DumpForm :=
  match kind with
  | "c" => some ⟨1, 4, dumpedChar⟩
  | "o1" => some ⟨1, 4, inBase 8 3⟩
  | "o2" => some ⟨2, 7, inBase 8 6⟩
  | "x1" => some ⟨1, 3, inBase 16 2⟩
  | "x2" => some ⟨2, 5, inBase 16 4⟩
  | "u1" => some ⟨1, 4, fun n => toString n⟩
  | "d1" => some ⟨1, 5, fun n => if n < 128 then toString n else "-" ++ toString (256 - n)⟩
  | _ => none

def dumpLine (f : DumpForm) (bytes : List Nat) : String :=
  String.join ((piecesOf f.size (bytes.length + 1) bytes).map fun unit =>
    padLeft f.width (f.text (littleEndian unit)))

/-- Marks a run of lines like the one before them with a star. -/
def starred : Option String → Bool → List (String × String) → List String
  | _, _, [] => []
  | before, inRun, (address, line) :: rest =>
    if before = some line && !rest.isEmpty then
      (if inRun then [] else ["*"]) ++ starred before true rest
    else (address ++ line) :: starred (some line) false rest

/-- Shows bytes as numbers or characters. -/
def dump (c : Call) : Task Unit :=
  withOptions c [valued 'A' "address-radix", valued 't' "format", flag 'c' "", flag 'b' "", flag 'x' "",
      flag 'o' "", flag 'v' "output-duplicates", valued 'N' "read-bytes",
      ⟨'w', "width", .perhaps, true⟩] 1
    fun o => do
    let kind := (o.value? 't').getD
      (if o.has 'c' then "c" else if o.has 'b' then "o1" else if o.has 'x' then "x2" else "o2")
    let kind := if kind = "x" then "x4" else if kind = "o" then "o4" else kind
    match dumpForm? kind with
    | none => refuse c 1 ("invalid type string " ++ quoted kind)
    | some f =>
      let mut all : List (List Nat) := []
      for path in o.paths do
        match ← read path with
        | .ok text => all := toBytes text :: all
        | .error cause => refuse c 1 (quotedIfNeeded path ++ ": " ++ cause.reason)
      let bytes := all.reverse.flatten
      let bytes := match (o.value? 'N').bind String.toNat? with
        | some n => bytes.take n
        | none => bytes
      let width := match (o.value? 'w').map String.toNat? with
        | some (some n) => n
        | some none => 32
        | none => 16
      let address (n : Nat) : String :=
        match (o.value? 'A').getD "o" with
        | "n" => ""
        | "d" => inBase 10 7 n
        | "x" => inBase 16 6 n
        | _ => inBase 8 7 n
      let rows := (piecesOf width (bytes.length + 1) bytes).zipIdx.map fun (row, i) =>
        (address (i * width), dumpLine f row)
      let shown := if o.has 'v' then rows.map fun (a, l) => a ++ l else starred none false rows
      let final := address bytes.length
      put (unlines (shown ++ if final = "" then [] else [final]))

end CommandContract.Utility
