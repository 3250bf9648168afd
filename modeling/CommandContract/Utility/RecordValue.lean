import CommandContract.Shell.Format
import CommandContract.Utility.RecordScript

set_option autoImplicit false

/-!
# Values of record scripts

A value is a number or a text; a text of the input counts as a number if it looks like one. Sums and
products are rounded once from the exact result.
-/
namespace CommandContract.Utility.RecordScript

open Shell (isSpaceChar byteChar)

inductive Scalar where
  | unset
  | number (x : Binary64)
  | text (cs : List Char)
  /-- a text of the input -/
  | input (cs : List Char)
  deriving DecidableEq, Repr, Inhabited

def zero : Binary64 := Binary64.ofInt 0

def ofNat (n : Nat) : Scalar := .number (Binary64.ofInt n)

def ofBool (b : Bool) : Scalar := ofNat b.toNat

/-! ## Numbers and texts -/

/-- The number at the beginning of a text. -/
def leadingNumber (cs : List Char) : Binary64 :=
  ((Decimal.ofText? (Shell.leadingNumeral (cs.dropWhile isSpaceChar))).bind
    Decimal.toBinary?).getD zero

/-- The number that a whole text is, blanks around it apart. -/
def wholeNumber? (cs : List Char) : Option Binary64 :=
  let cs := ((cs.dropWhile isSpaceChar).reverse.dropWhile isSpaceChar).reverse
  if cs.isEmpty || (Shell.leadingNumeral cs).length < cs.length then none
  else (Decimal.ofText? cs).bind Decimal.toBinary?

def Scalar.toNumber : Scalar → Binary64
  | unset => zero
  | number x => x
  | text cs => leadingNumber cs
  | input cs => leadingNumber cs

/-- The number that a value is in a comparison. -/
def Scalar.asNumber? : Scalar → Option Binary64
  | unset => some zero
  | number x => some x
  | text _ => none
  | input cs => wholeNumber? cs

def Scalar.isTrue : Scalar → Bool
  | unset => false
  | number x => !x.isZero
  | text cs => !cs.isEmpty
  | input cs =>
    match wholeNumber? cs with
    | some x => !x.isZero
    | none => !cs.isEmpty

/-- What a format says when it lacks an argument or has an unknown letter. -/
inductive FormatFault where
  | missing
  | letter
  deriving DecidableEq, Repr

/-- A format with its arguments put in; `show_` writes values as texts. -/
def formatted (show_ : Scalar → List Char) :
    Nat → List Char → List Scalar → Except FormatFault (List Char)
  | 0, _, _ => .ok []
  | _ + 1, [], _ => .ok []
  | fuel + 1, '%' :: '%' :: cs, args => ('%' :: ·) <$> formatted show_ fuel cs args
  | fuel + 1, '%' :: cs, args => do
    let (flags, cs) := cs.span ['#', '-', '+', ' ', '0'].contains
    let count (cs : List Char) (args : List Scalar) :
        Except FormatFault (Option Int × List Char × List Scalar) :=
      match cs, args with
      | '*' :: cs, a :: args => .ok (some a.toNumber.truncate, cs, args)
      | '*' :: _, [] => .error .missing
      | cs, args =>
        let (digits, cs) := cs.span Char.isDigit
        .ok (if digits.isEmpty then none else some (Decimal.ofDigits digits), cs, args)
    let (width, cs, args) ← count cs args
    let flags := if width.any (· < 0) then '-' :: flags else flags
    let (precision, cs, args) ← match cs with
      | '.' :: cs => do
        let (n, cs, args) ← count cs args
        pure (some ((n.getD 0).toNat), cs, args)
      | cs => pure (none, cs, args)
    let d : Shell.Directive := ⟨flags, (width.getD 0).natAbs, precision⟩
    let cs := cs.dropWhile ['h', 'l'].contains
    match cs, args with
    | [], _ => .error .letter
    | _, [] => .error .missing
    | letter :: cs, a :: args =>
      let written ← match letter with
        | 'd' => pure (d.integer a.toNumber.truncate)
        | 'i' => pure (d.integer a.toNumber.truncate)
        | 'u' => pure (d.unsigned 10 false a.toNumber.truncate)
        | 'o' => pure (d.unsigned 8 false a.toNumber.truncate)
        | 'x' => pure (d.unsigned 16 false a.toNumber.truncate)
        | 'X' => pure (d.unsigned 16 true a.toNumber.truncate)
        | 's' => pure (d.string (show_ a))
        | 'c' =>
          match a with
          | .number x => pure (d.string [byteChar (x.truncate % 256).toNat])
          | a => pure (d.string ((show_ a).take 1))
        | letter =>
          if ['e', 'E', 'f', 'F', 'g', 'G'].contains letter then pure (d.binary letter a.toNumber)
          else .error .letter
      return written ++ (← formatted show_ fuel cs args)
  | fuel + 1, c :: cs, args => (c :: ·) <$> formatted show_ fuel cs args

/-- A number as a text: an integer by its digits, another one in a format. -/
def numberText (format : List Char) (x : Binary64) : List Char :=
  if x.isIntegral && decide (x.truncate.natAbs ≤ pow2 64) then (toString x.truncate).toList
  else (formatted (fun _ => []) (format.length + 1) format [.number x]).toOption.getD []

def Scalar.toText (format : List Char) : Scalar → List Char
  | unset => []
  | number x => numberText format x
  | text cs => cs
  | input cs => cs

/-! ## Operations -/

def addNumbers (x y : Binary64) : Option Binary64 :=
  let sum := x.units + y.units
  Binary64.ofRatio? (sum < 0) sum.natAbs Binary64.one

/-- The largest number whose square is not above a number, from the highest of some bits on. -/
def rootBits (n : Nat) : Nat → Nat → Nat
  | 0, r => r
  | bits + 1, r =>
    let s := r + pow2 bits
    rootBits n bits (if s * s ≤ n then s else r)

def squareRoot (x : Binary64) : Binary64 :=
  let (n, d) := x.ratio
  let n := n * d * pow2 128
  Binary64.nearest false (rootBits n (n.log2 / 2 + 1) 0) (d * pow2 64)

/-- Powers of integers, and square roots. -/
def powerOf (x y : Binary64) : Option Binary64 :=
  let n := y.truncate
  if !y.isIntegral then
    let isHalf : Bool := y.units * 2 = Binary64.one
    some (if isHalf && !x.negative then squareRoot x else zero)
  else if n.natAbs > 2000 then some (if x.isZero then zero else Binary64.ofInt 1)
  else
    let (a, b) := x.ratio
    let (a, b) := (Nat.pow a n.natAbs, Nat.pow b n.natAbs)
    let negative := x.negative && n % 2 = 1
    if n < 0 then (if a = 0 then none else Binary64.ofRatio? negative b a)
    else Binary64.ofRatio? negative a b

/-- The result of an operation. One without a finite result has a word for it. -/
def Operation.apply (op : Operation) (x y : Binary64) : Scalar :=
  let orInfinite (negative : Bool) (r : Option Binary64) : Scalar :=
    match r with
    | some x => .number x
    | none => .text (if negative then "-inf" else "inf").toList
  match op with
  | .add => orInfinite x.negative (addNumbers x y)
  | .subtract => orInfinite x.negative (addNumbers x y.neg)
  | .multiply => orInfinite (x.negative != y.negative) (x.mul? y)
  | .divide =>
    let negative := x.negative != y.negative
    if y.isZero then (if x.isZero then .text "-nan".toList else orInfinite negative none)
    else
      orInfinite negative
        (Binary64.ofRatio? negative (x.ratio.1 * y.ratio.2) (x.ratio.2 * y.ratio.1))
  | .remainder =>
    if y.isZero then .text "-nan".toList
    else
      let r := x.units.tmod y.units
      orInfinite false (Binary64.ofRatio? (r < 0) r.natAbs Binary64.one)
  | .power => orInfinite (x.negative && y.truncate % 2 = 1) (powerOf x y)

def Relation.ofOrdering (r : Relation) (o : Ordering) : Bool :=
  match r with
  | .less => o = .lt
  | .atMost => o ≠ .gt
  | .equal => o = .eq
  | .unequal => o ≠ .eq
  | .more => o = .gt
  | .atLeast => o ≠ .lt

/-- Numbers are compared as numbers, and everything else as texts. -/
def Relation.holds (r : Relation) (format : List Char) (a b : Scalar) : Bool :=
  match a.asNumber?, b.asNumber? with
  | some x, some y => r.ofOrdering (compare x.units y.units)
  | _, _ =>
    r.ofOrdering (compare (String.ofList (a.toText format)) (String.ofList (b.toText format)))

/-! ## Parts of texts -/

/-- The parts between the matches of an expression that are not empty; the part at hand began at an
index, and matches are looked for from another one on. -/
def splitByRegex (r : Regex) (cs : List Char) : Nat → Nat → Nat → List (List Char)
  | 0, start, _ => [cs.drop start]
  | fuel + 1, start, from_ =>
    match r.find? false cs from_ with
    | none => [cs.drop start]
    | some m =>
      if m.stop = m.start then
        if cs.length ≤ m.stop then [cs.drop start] else splitByRegex r cs fuel start (m.stop + 1)
      else (cs.drop start).take (m.start - start) :: splitByRegex r cs fuel m.stop m.stop

/-- What parts of a text are separated by. -/
inductive Separator where
  | blanks
  | nothing
  | char (c : Char)
  | regex (r : Regex)

def separator? (cs : List Char) : Except String Separator :=
  match cs with
  | [] => .ok .nothing
  | [' '] => .ok .blanks
  | [c] => .ok (.char c)
  | cs => (Regex.ofText .extended (String.ofList cs)).map fun r => .regex r.1

/-- The words of a text. -/
def words (cs : List Char) : List (List Char) :=
  (Text.splitOn ' ' (cs.map fun c => if c = '\t' || c = '\n' then ' ' else c)).filter
    fun w => !w.isEmpty

def Separator.split (s : Separator) (cs : List Char) : List (List Char) :=
  if cs.isEmpty then []
  else
    match s with
    | .blanks => words cs
    | .nothing => cs.map fun c => [c]
    | .char c => Text.splitOn c cs
    | .regex r => splitByRegex r cs (cs.length + 2) 0 0

/-- The text up to an empty line, and what follows the empty lines. -/
def paragraph : List Char → List Char × List Char
  | [] => ([], [])
  | '\n' :: '\n' :: cs => ([], cs.dropWhile (· = '\n'))
  | c :: cs =>
    let (p, rest) := paragraph cs
    (c :: p, rest)

/-- Takes the first record of a text; records are separated by what a text says. -/
def takeRecord (separator text : List Char) : Option (List Char × List Char) :=
  match separator with
  | [] =>
    let text := text.dropWhile (· = '\n')
    if text.isEmpty then none
    else
      let (p, rest) := paragraph text
      some (if p.getLast? = some '\n' then p.dropLast else p, rest)
  | [c] =>
    if text.isEmpty then none
    else
      let (r, rest) := text.span (· ≠ c)
      some (r, rest.drop 1)
  | cs =>
    if text.isEmpty then none
    else
      match (Regex.ofText .extended (String.ofList cs)).map fun r => r.1.find? false text 0 with
      | .ok (some m) => some (text.take m.start, text.drop (max m.stop 1))
      | _ => some (text, [])

/-- A replacement with the matched text put in for `&`. -/
def replacementText (found : List Char) : List Char → List Char
  | [] => []
  | '\\' :: '&' :: cs => '&' :: replacementText found cs
  | '\\' :: '\\' :: cs => '\\' :: replacementText found cs
  | '&' :: cs => found ++ replacementText found cs
  | c :: cs => c :: replacementText found cs

/-- Replaces the first match, or all of them, from an index on. An empty match right behind another
one does not count. -/
def replaceMatches (r : Regex) (replacement cs : List Char) (all : Bool) :
    Nat → Nat → Option Nat → List Char × Nat
  | 0, start, _ => (cs.drop start, 0)
  | fuel + 1, start, lastStop =>
    match r.find? false cs start with
    | none => (cs.drop start, 0)
    | some m =>
      let before := (cs.drop start).take (m.start - start)
      let found := (cs.drop m.start).take (m.stop - m.start)
      let isEmpty := m.start = m.stop
      let new := if isEmpty && lastStop = some m.start then [] else replacementText found replacement
      let count := if isEmpty && lastStop = some m.start then 0 else 1
      if !all then (before ++ new ++ cs.drop m.stop, 1)
      else if isEmpty then
        match cs.drop m.start with
        | [] => (before ++ new, count)
        | c :: _ =>
          let (rest, n) := replaceMatches r replacement cs all fuel (m.stop + 1) none
          (before ++ new ++ c :: rest, n + count)
      else
        let (rest, n) := replaceMatches r replacement cs all fuel m.stop (some m.stop)
        (before ++ new ++ rest, n + count)

/-- The characters from a place on, counted from one, as many as a length says. -/
def partOf (cs : List Char) (start : Binary64) (length : Option Binary64) : List Char :=
  let rounded (x : Binary64) : Int :=
    let n := Binary64.roundQuotient x.units.natAbs Binary64.one
    if x.negative then -(n : Int) else n
  let first := rounded start
  let behind := match length with
    | some l => first + rounded l
    | none => cs.length + 1
  let from_ := max first 1
  (cs.drop (from_ - 1).toNat).take (behind - from_).toNat

end CommandContract.Utility.RecordScript
