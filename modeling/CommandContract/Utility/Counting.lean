import CommandContract.Utility.Copying

set_option autoImplicit false

/-!
# Counting

Numbers of lines, words and bytes, and of lines that repeat.
-/
namespace CommandContract.Utility

/-- What is counted of a text. -/
structure Counts where
  lines : Nat
  words : Nat
  bytes : Nat
  widest : Nat
  deriving DecidableEq, Repr

def Counts.zero : Counts := ⟨0, 0, 0, 0⟩

def Counts.add (a b : Counts) : Counts :=
  ⟨a.lines + b.lines, a.words + b.words, a.bytes + b.bytes, max a.widest b.widest⟩

/-- The number of maximal runs of characters that are no spaces. -/
def countWords (text : String) : Nat :=
  (text.toList.foldl (fun (count, inside) c =>
    if isSpaceChar c then (count, false) else (if inside then count else count + 1, true))
    (0, false)).1

/-- The columns that a line takes, tabs leading to multiples of eight. -/
def lineWidth (line : String) : Nat :=
  line.toList.foldl (fun n c =>
    if c = '\t' then n / 8 * 8 + 8 else if 32 ≤ c.toNat && c.toNat < 127 then n + 1 else n) 0

def Counts.ofText (text : String) : Counts := {
  lines := text.toList.count '\n'
  words := countWords text
  bytes := text.length
  widest := ((Utility.lines text).map lineWidth).foldl max 0 }

def countForms : List OptionForm := [
  flag 'l' "lines", flag 'w' "words", flag 'c' "bytes", flag 'm' "chars", flag 'L' "max-line-length"]

/-- The numbers that options ask for, in their order. -/
def Counts.chosen (o : Choices) (n : Counts) : List Nat :=
  if o.options.isEmpty then [n.lines, n.words, n.bytes]
  else
    (if o.has 'l' then [n.lines] else []) ++ (if o.has 'w' then [n.words] else []) ++
      (if o.has 'm' then [n.bytes] else []) ++ (if o.has 'c' then [n.bytes] else []) ++
      (if o.has 'L' then [n.widest] else [])

/-- Columns are as wide as the sizes of the files together ask for. What is no file has no size. -/
def countWidth (o : Choices) (d : Desk) : Nat :=
  let single := (Counts.zero.chosen o).length = 1 && o.operands.length ≤ 1
  let size (path : String) : Option Nat :=
    if path = "-" then
      if d.seekable then some (match d.input with
        | .ok text => text.length
        | .error _ => 0)
      else none
    else d.files.size? (toText path)
  let known := o.paths.map fun path =>
    (size path, path ≠ "-" && !d.files.pathExists (toText path))
  if single then 1
  else
    let total := (known.map fun k => (k.1).getD 0).foldl (· + ·) 0
    let least := if known.any fun k => k.1.isNone && !k.2 then 7 else 1
    if o.operands.length = 1 && known.any (·.2) then 1
    else max least (toString total).length

def countLine (o : Choices) (width : Nat) (n : Counts) (name : String) : String :=
  let numbers := (n.chosen o).map fun k => padLeft width (toString k)
  Text.joinWith " " numbers ++ (if name = "" then "" else " " ++ name)

/-- Counts what files hold. -/
def count (c : Call) : Task Unit :=
  withOptions c countForms 1 fun o => do
    let width := countWidth o (← get)
    let mut total := Counts.zero
    for path in o.paths do
      match ← read path with
      | .ok text =>
        let n := Counts.ofText text
        total := total.add n
        putLine (countLine o width n (if o.operands.isEmpty then "" else path))
      | .error cause =>
        refuse c 1 (quotedIfNeeded path ++ ": " ++ cause.reason)
        if cause = .isDirectory then putLine (countLine o width .zero path)
    if o.operands.length > 1 then putLine (countLine o width total "total")

/-! ## Repeated lines -/

/-- Neighbouring lines that are alike, with their number. -/
def groupLines (alike : String → String → Bool) : List String → List (String × List String)
  | [] => []
  | line :: rest =>
    match groupLines alike rest with
    | [] => [(line, [line])]
    | (first, group) :: groups =>
      if alike line first then (line, line :: group) :: groups
      else (line, [line]) :: (first, group) :: groups

def repeatForms : List OptionForm := [
  flag 'c' "count", flag 'd' "repeated", flag 'D' "all-repeated", flag 'u' "unique",
  flag 'i' "ignore-case", valued 'f' "skip-fields", valued 's' "skip-chars", valued 'w' "check-chars",
  flag 'z' "zero-terminated"]

/-- Passes over fields, each blanks and then others. -/
def skipFields : Nat → List Char → List Char
  | 0, cs => cs
  | n + 1, cs =>
    let isBlank (c : Char) : Bool := c = ' ' || c = '\t'
    skipFields n ((cs.dropWhile isBlank).dropWhile fun c => !isBlank c)

/-- The part of a line that is compared. -/
def comparedPart (o : Choices) (line : String) : String :=
  let number (letter : Char) : Option Nat := (o.value? letter).bind String.toNat?
  let cs := (skipFields ((number 'f').getD 0) line.toList).drop ((number 's').getD 0)
  let cs := match number 'w' with
    | some n => cs.take n
    | none => cs
  let cs := if o.has 'i' then cs.map Char.toLower else cs
  String.ofList cs

/-- Writes one of several lines that are alike. -/
def dropRepeats (c : Call) : Task Unit :=
  withOptions c repeatForms 1 fun o => do
    match o.operands with
    | _ :: _ :: extra :: _ => misuse c 1 ("extra operand " ++ quoted extra)
    | operands =>
      let path := operands.headD "-"
      match ← read path with
      | .error .isDirectory => refuse c 1 ("error reading " ++ quoted path)
      | .error cause => refuse c 1 (quotedIfNeeded path ++ ": " ++ cause.reason)
      | .ok text =>
        let alike (a b : String) : Bool := comparedPart o a = comparedPart o b
        let shown := (groupLines alike (lines text)).flatMap fun (line, group) =>
          let repeats := group.length > 1
          let isShown := !((o.has 'd' || o.has 'D') && !repeats) && !(o.has 'u' && repeats)
          if !isShown then []
          else if o.has 'D' then group
          else if o.has 'c' then [padLeft 7 (toString group.length) ++ " " ++ line]
          else [line]
        match operands.drop 1 with
        | [target] =>
          match ← store target (unlines shown) false with
          | .ok () => pure ()
          | .error cause => refuse c 1 (quotedIfNeeded target ++ ": " ++ cause.reason)
        | _ => put (unlines shown)

end CommandContract.Utility
