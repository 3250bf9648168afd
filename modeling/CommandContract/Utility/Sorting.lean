import CommandContract.Utility.Task

set_option autoImplicit false

/-!
# Sorting

Lines in the order of keys. Keys are fields or parts of them, compared as texts, numbers or months;
lines with equal keys are compared as a whole unless the order is to be stable.
-/
namespace CommandContract.Utility

/-- How a key is compared. -/
structure Comparison where
  numeric : Bool
  human : Bool
  version : Bool
  month : Bool
  foldsCase : Bool
  skipsBlanks : Bool
  onlyWords : Bool
  onlyPrintable : Bool
  reversed : Bool
  deriving DecidableEq, Repr

def Comparison.plain : Comparison :=
  ⟨false, false, false, false, false, false, false, false, false⟩

/-- Adds what an option letter asks for. -/
def Comparison.with? (k : Comparison) : Char → Option Comparison
  | 'n' => some { k with numeric := true }
  | 'g' => some { k with numeric := true }
  | 'h' => some { k with human := true }
  | 'V' => some { k with version := true }
  | 'M' => some { k with month := true }
  | 'f' => some { k with foldsCase := true }
  | 'b' => some { k with skipsBlanks := true }
  | 'd' => some { k with onlyWords := true }
  | 'i' => some { k with onlyPrintable := true }
  | 'r' => some { k with reversed := true }
  | _ => none

def Comparison.ofLetters (letters : List Char) : Comparison :=
  letters.foldl (fun k c => (k.with? c).getD k) .plain

/-- A place in a line: a field and a character in it, both counted from one. -/
structure Place where
  field : Nat
  char : Nat
  /-- blanks in front of the field do not count -/
  skipsBlanks : Bool
  deriving DecidableEq, Repr

structure Key where
  start : Place
  stop : Option Place
  comparison : Comparison
  /-- the key has option letters of its own -/
  isOwn : Bool
  deriving DecidableEq, Repr

def isBlankByte (c : Char) : Bool := c = ' ' || c = '\t'

/-! ## Comparing -/

/-- A decimal numeral: sign, digits in front of the point without leading zeros, digits behind it
without trailing zeros. -/
def numeralOf (text : List Char) : Bool × List Char × List Char :=
  let cs := text.dropWhile isSpaceChar
  let (negative, cs) := match cs with
    | '-' :: r => (true, r)
    | r => (false, r)
  let (whole, rest) := cs.span Char.isDigit
  let fraction := match rest with
    | '.' :: r => r.takeWhile Char.isDigit
    | _ => []
  (negative, whole.dropWhile (· = '0'), (fraction.reverse.dropWhile (· = '0')).reverse)

/-- The order of magnitudes. -/
def compareDigits (a b : List Char × List Char) : Ordering :=
  ((compare a.1.length b.1.length).then (compare (String.ofList a.1) (String.ofList b.1))).then
    (compare (String.ofList a.2) (String.ofList b.2))

def compareNumerals (a b : List Char) : Ordering :=
  let (na, wa, fa) := numeralOf a
  let (nb, wb, fb) := numeralOf b
  let za := wa.isEmpty && fa.isEmpty
  let zb := wb.isEmpty && fb.isEmpty
  match na && !za, nb && !zb with
  | false, false => compareDigits (wa, fa) (wb, fb)
  | true, true => compareDigits (wb, fb) (wa, fa)
  | true, false => .lt
  | false, true => .gt

/-- The rank of the suffix of a number. -/
def suffixRank (text : List Char) : Int :=
  let (negative, whole, _) := numeralOf text
  let rest := ((text.dropWhile isSpaceChar).dropWhile (· = '-')).dropWhile fun c => c.isDigit || c = '.'
  let rank : Int := match rest.head? with
    | some 'k' => 1
    | some 'K' => 1
    | some 'M' => 2
    | some 'G' => 3
    | some 'T' => 4
    | some 'P' => 5
    | some 'E' => 6
    | _ => 0
  if whole.isEmpty then 0 else if negative then -rank else rank

def compareHuman (a b : List Char) : Ordering :=
  (compare (suffixRank a) (suffixRank b)).then (compareNumerals a b)

def months : List String :=
  ["JAN", "FEB", "MAR", "APR", "MAY", "JUN", "JUL", "AUG", "SEP", "OCT", "NOV", "DEC"]

def monthOf (text : List Char) : Nat :=
  let name := String.ofList (((text.dropWhile isBlankByte).take 3).map Char.toUpper)
  match months.idxOf? name with
  | some i => i + 1
  | none => 0

/-- The order of a character between digits of versions: ends, letters, others. -/
def versionRank (c : Char) : Nat :=
  if c = '~' then 0 else if c.isDigit then 1 else if c.isAlpha then 1 + c.toNat else 257 + c.toNat

/-- The order of versions: runs of digits as numbers, the rest by rank. -/
def compareVersions : Nat → List Char → List Char → Ordering
  | 0, _, _ => .eq
  | fuel + 1, a, b =>
    if a.isEmpty && b.isEmpty then .eq
    else
      let (ta, ra) := a.span fun c => !c.isDigit
      let (tb, rb) := b.span fun c => !c.isDigit
      let ranks (cs : List Char) (n : Nat) : List Nat :=
        cs.map versionRank ++ List.replicate (n - cs.length) 1
      let n := max ta.length tb.length
      let texts := compare (ranks ta n) (ranks tb n)
      let (da, ra) := ra.span Char.isDigit
      let (db, rb) := rb.span Char.isDigit
      let digits := compareDigits (da.dropWhile (· = '0'), []) (db.dropWhile (· = '0'), [])
      (texts.then digits).then (compareVersions fuel ra rb)

def Comparison.clean (k : Comparison) (cs : List Char) : List Char :=
  let cs := if k.onlyWords then cs.filter fun c => isBlankByte c || c.isAlphanum else cs
  let cs := if k.onlyPrintable then cs.filter fun c => 32 ≤ c.toNat && c.toNat < 127 else cs
  if k.foldsCase then cs.map Char.toUpper else cs

def compareTexts (a b : List Char) : Ordering := compare (String.ofList a) (String.ofList b)

/-- Compares two keys, not reversed. -/
def Comparison.compareKeys (k : Comparison) (a b : List Char) : Ordering :=
  if k.numeric then compareNumerals a b
  else if k.human then compareHuman a b
  else if k.month then compare (monthOf a) (monthOf b)
  else if k.version then
    let a := k.clean a
    let b := k.clean b
    compareVersions (a.length + b.length + 1) a b
  else compareTexts (k.clean a) (k.clean b)

/-! ## Keys of lines -/

/-- The fields of a line with what follows each: separated by a character, or each with the blanks
in front of it. -/
def dropFields (separator : Option Char) : Nat → List Char → List Char
  | 0, cs => cs
  | n + 1, cs =>
    match separator with
    | some t => dropFields separator n ((cs.dropWhile (· ≠ t)).drop 1)
    | none => dropFields separator n ((cs.dropWhile isBlankByte).dropWhile fun c => !isBlankByte c)

/-- How much of a line is left where a key starts. -/
def restAtStart (separator : Option Char) (p : Place) (line : List Char) : Nat :=
  let rest := dropFields separator (p.field - 1) line
  let rest := if p.skipsBlanks then rest.dropWhile isBlankByte else rest
  (rest.drop (p.char - 1)).length

/-- How much of a line is left where a key stops. A place without a character stands behind its
field. -/
def restAtStop (separator : Option Char) (p : Place) (line : List Char) : Nat :=
  if p.char = 0 then
    match separator with
    | some t =>
      let rest := dropFields separator (p.field - 1) line
      (rest.dropWhile (· ≠ t)).length
    | none => (dropFields none p.field line).length
  else
    let rest := dropFields separator (p.field - 1) line
    let rest := if p.skipsBlanks then rest.dropWhile isBlankByte else rest
    (rest.drop p.char).length

def Key.part (separator : Option Char) (k : Key) (line : String) : List Char :=
  let cs := line.toList
  let start := restAtStart separator k.start cs
  let stop := match k.stop with
    | some p => restAtStop separator p cs
    | none => 0
  (cs.drop (cs.length - start)).take (start - stop)

/-- An order of lines. -/
structure LineOrder where
  separator : Option Char
  keys : List Key
  comparison : Comparison
  stable : Bool
  unique : Bool

/-- The order by keys alone. -/
def LineOrder.byKeys (o : LineOrder) (a b : String) : Ordering :=
  o.keys.foldl (fun r k =>
    r.then (
      let c := if k.isOwn then k.comparison else o.comparison
      let ordering := c.compareKeys (k.part o.separator a) (k.part o.separator b)
      if c.reversed then ordering.swap else ordering)) .eq

def LineOrder.compare (o : LineOrder) (a b : String) : Ordering :=
  let plain := Ord.compare a b
  let whole := if o.comparison.reversed then plain.swap else plain
  let byKeys :=
    if o.keys.isEmpty then
      if o.comparison = { Comparison.plain with reversed := o.comparison.reversed } then .eq
      else
        let c := o.comparison
        let clean (s : String) : List Char :=
          if c.skipsBlanks then s.toList.dropWhile isBlankByte else s.toList
        let ordering := c.compareKeys (clean a) (clean b)
        if c.reversed then ordering.swap else ordering
    else o.byKeys a b
  let needsWhole := !(o.stable || o.unique) ||
    (o.keys.isEmpty && o.comparison = { Comparison.plain with reversed := o.comparison.reversed })
  if needsWhole then byKeys.then whole else byKeys

/-- Keeps the first of neighbouring lines that are equal in the order. -/
def LineOrder.dropEqual (o : LineOrder) (sorted : List String) : List String :=
  (sorted.foldl (fun kept line =>
    match kept with
    | last :: _ => if o.compare last line = .eq then kept else line :: kept
    | [] => [line]) []).reverse

/-! ## Options -/

/-- A place of a key: field, character behind a point, and option letters. -/
def place? (text : List Char) (defaultChar : Nat) : Option (Place × List Char) :=
  let (field, rest) := text.span Char.isDigit
  let number (ds : List Char) : Nat := ds.foldl (fun n c => 10 * n + (c.toNat - 48)) 0
  if field.isEmpty then none
  else
    match rest with
    | '.' :: rest =>
      let (char, letters) := rest.span Char.isDigit
      if char.isEmpty then none else some (⟨number field, number char, letters.contains 'b'⟩, letters)
    | letters => some (⟨number field, defaultChar, letters.contains 'b'⟩, letters)

def key? (text : String) : Option Key := do
  let (front, back) := match Text.cutAt? ',' text.toList with
    | some (front, back) => (front, some back)
    | none => (text.toList, none)
  let (start, letters) ← place? front 1
  let (stop, more) ← match back with
    | none => some (none, [])
    | some back => (place? back 0).map fun (p, letters) => (some p, letters)
  let own := letters ++ more
  if own.all fun c => (Comparison.plain.with? c).isSome then
    if start.field = 0 then none
    else some ⟨start, stop, .ofLetters own, !own.isEmpty⟩
  else none

def orderForms : List OptionForm := [
  flag 'b' "ignore-leading-blanks", flag 'd' "dictionary-order", flag 'f' "ignore-case",
  flag 'g' "general-numeric-sort", flag 'h' "human-numeric-sort", flag 'i' "ignore-nonprinting",
  flag 'M' "month-sort", flag 'n' "numeric-sort", flag 'r' "reverse", flag 'V' "version-sort",
  flag 'c' "check", flag 'C' "", flag 'm' "merge", valued 'o' "output", flag 's' "stable",
  valued 't' "field-separator", flag 'u' "unique", valued 'k' "key", flag 'z' "zero-terminated",
  valued 'S' "buffer-size", valued 'T' "temporary-directory"]

/-- Blanks in front of a field do not count where the key or the whole order says so. -/
def Key.settle (comparison : Comparison) (k : Key) : Key :=
  if k.isOwn || !comparison.skipsBlanks then k
  else { k with
    start := { k.start with skipsBlanks := true }
    stop := k.stop.map fun p => { p with skipsBlanks := true } }

def lineOrder? (o : Choices) : Except String LineOrder := do
  let comparison := Comparison.ofLetters (o.options.map (·.1))
  let keys ← (o.options.filter (·.1 = 'k')).mapM fun (_, text) =>
    match key? text with
    | some k => .ok (k.settle comparison)
    | none =>
      if text.toList.head? = some '0' then
        .error ("field number is zero: invalid field specification " ++ quoted text)
      else .error ("invalid number at field start: invalid count at start of " ++ quoted text)
  let separator ← match (o.value? 't').map String.toList with
    | none => .ok none
    | some [c] => .ok (some c)
    | some ['\\', '0'] => .ok (some '\x00')
    | some [] => .error "empty tab"
    | some cs => .error ("multi-character tab " ++ quoted (String.ofList cs))
  .ok ⟨separator, keys, comparison, o.has 's', o.has 'u'⟩

/-- The number of the first line that breaks an order, and the line. -/
def firstDisorder? (o : LineOrder) : Nat → List String → Option (Nat × String)
  | n, a :: b :: rest =>
    let ordering := o.compare a b
    if ordering = .gt || (o.unique && ordering = .eq) then some (n + 1, b)
    else firstDisorder? o (n + 1) (b :: rest)
  | _, _ => none

/-- Sorts the lines of files. -/
def sort (c : Call) : Task Unit :=
  withOptions c orderForms 2 fun o => do
    match lineOrder? o with
    | .error message => refuse c 2 message
    | .ok order =>
      let mut all : List (List String) := []
      for path in o.paths do
        match ← read path with
        | .ok text => all := lines text :: all
        | .error .isDirectory =>
          refuse c 2 ("read failed: " ++ quotedIfNeeded path ++ ": Is a directory")
          return
        | .error cause =>
          refuse c 2 ("cannot read: " ++ quotedIfNeeded path ++ ": " ++ cause.reason)
          return
      let found := all.reverse.flatten
      if o.has 'c' || o.has 'C' then
        match firstDisorder? order 1 found with
        | some (n, line) =>
          if o.has 'c' then
            say c (o.paths.headD "-" ++ ":" ++ toString n ++ ": disorder: " ++ line)
          finish 1
        | none => pure ()
      else
        let sorted := found.mergeSort fun a b => order.compare a b ≠ .gt
        let text := unlines (if o.has 'u' then order.dropEqual sorted else sorted)
        match o.value? 'o' with
        | none => put text
        | some path =>
          match ← store path text false with
          | .ok () => pure ()
          | .error cause => refuse c 2 ("open failed: " ++ quotedIfNeeded path ++ ": " ++ cause.reason)

end CommandContract.Utility
