import CommandContract.Number.Power
import CommandContract.Shell.Format
import CommandContract.Utility.Regex
import CommandContract.Utility.Task

set_option autoImplicit false

/-!
# Words

Utilities that work on their arguments: parts of paths, runs of numbers, and calculations with
words.
-/
namespace CommandContract.Utility

/-! ## Parts of paths -/

def dropSlashes (cs : List Char) : List Char := (cs.reverse.dropWhile (· = '/')).reverse

/-- The last part of a path. -/
def lastPart (path : String) : String :=
  let cs := dropSlashes path.toList
  if cs.isEmpty then (if path = "" then "" else "/")
  else String.ofList (cs.reverse.takeWhile (· ≠ '/')).reverse

/-- What stands in front of the last part of a path. -/
def frontPart (path : String) : String :=
  let cs := dropSlashes path.toList
  if cs.isEmpty then (if path = "" then "." else "/")
  else
    let front := cs.reverse.dropWhile (· ≠ '/')
    if front.isEmpty then "."
    else
      let front := dropSlashes front.reverse
      if front.isEmpty then "/" else String.ofList front

def dropSuffix (suffix name : String) : String :=
  match Text.dropTrailing? suffix.toList name.toList with
  | some front => if front.isEmpty then name else String.ofList front
  | none => name

def showLastParts (c : Call) : Task Unit :=
  match readOptions [flag 'a' "multiple", valued 's' "suffix", flag 'z' "zero"] false c.args with
  | .error message => misuse c 1 message
  | .ok o => do
    let show_ (suffix path : String) : Task Unit := putLine (dropSuffix suffix (lastPart path))
    match o.operands, o.has 'a' || o.has 's' with
    | [], _ => misuse c 1 "missing operand"
    | paths, true => for path in paths do show_ ((o.value? 's').getD "") path
    | [path], false => show_ "" path
    | [path, suffix], false => show_ suffix path
    | _ :: _ :: extra :: _, false => misuse c 1 ("extra operand " ++ quoted extra)

def showFrontParts (c : Call) : Task Unit :=
  withOptions c [flag 'z' "zero"] 1 fun o => do
    if o.operands.isEmpty then misuse c 1 "missing operand"
    else for path in o.operands do putLine (frontPart path)

/-! ## Runs of numbers -/

/-- A decimal as an integer and the number of its places behind the point. -/
def scaled? (text : String) : Option (Int × Nat) :=
  let (negative, cs) := match text.toList with
    | '-' :: r => (true, r)
    | '+' :: r => (false, r)
    | r => (false, r)
  let (whole, rest) := cs.span Char.isDigit
  let (places, rest) := match rest with
    | '.' :: r => r.span Char.isDigit
    | r => ([], r)
  if !rest.isEmpty || (whole.isEmpty && places.isEmpty) then none
  else
    let n : Int := (whole ++ places).foldl (fun n c => 10 * n + (c.toNat - 48)) (0 : Nat)
    some (if negative then -n else n, places.length)

def scaleTo (places : Nat) (n : Int × Nat) : Int := n.1 * pow10 (places - n.2)

/-- A scaled integer with its point. -/
def decimalText (places : Nat) (n : Int) : String :=
  let digits := Nat.toDigits 10 n.natAbs
  let digits := List.replicate (places + 1 - digits.length) '0' ++ digits
  let whole := digits.take (digits.length - places)
  let text := if places = 0 then whole else whole ++ '.' :: digits.drop (digits.length - places)
  String.ofList (if n < 0 then '-' :: text else text)

/-- The numbers from one to another by steps, in order. -/
def numbersFrom (first step last : Int) : List Int :=
  if step = 0 then []
  else
    let count := (last - first).fdiv step + 1
    (List.range count.toNat).map fun (i : Nat) => first + step * (i : Int)

/-- Fills a number with zeros behind its sign. -/
def fillZeros (width : Nat) (text : String) : String :=
  let zeros := String.ofList (List.replicate (width - text.length) '0')
  match text.toList with
  | '-' :: digits => "-" ++ zeros ++ String.ofList digits
  | _ => zeros ++ text

/-- Separates options from numbers, which may be negative. -/
def splitNumbers : List String → List String × List String
  | [] => ([], [])
  | "--" :: rest => ([], rest)
  | arg :: rest =>
    match arg.toList with
    | '-' :: c :: _ =>
      if c.isDigit || c = '.' then ([], arg :: rest)
      else if arg = "-s" || arg = "-f" then
        match rest with
        | value :: rest =>
          let (options, numbers) := splitNumbers rest
          (arg :: value :: options, numbers)
        | [] => ([arg], [])
      else
        let (options, numbers) := splitNumbers rest
        (arg :: options, numbers)
    | _ => ([], arg :: rest)

/-- A number in the way of a format. -/
def formatted (form text : String) : String :=
  match Shell.format form.toList 2 ⟨[], [text], [], false⟩ with
  | .ok f => String.ofList f.chars
  | .error (f, _) => String.ofList f.chars

def showNumbers (c : Call) : Task Unit :=
  let (options, numbers) := splitNumbers c.args
  let forms := [valued 's' "separator", flag 'w' "equal-width", valued 'f' "format"]
  match readOptions forms true options with
  | .error message => misuse c 1 message
  | .ok o =>
    match numbers.find? fun t => (scaled? t).isNone with
    | some text => misuse c 1 ("invalid floating point argument: " ++ quoted text)
    | none =>
      match numbers.filterMap scaled? with
      | [] => misuse c 1 "missing operand"
      | _ :: _ :: _ :: _ :: _ =>
        misuse c 1 ("extra operand " ++ quoted (numbers[3]?.getD ""))
      | parsed => do
        let (first, step, last) := match parsed with
          | [last] => ((1, 0), (1, 0), last)
          | [first, last] => (first, (1, 0), last)
          | first :: step :: last :: _ => (first, step, last)
          | [] => ((1, 0), (1, 0), (0, 0))
        let places := max first.2 step.2
        let all := max places last.2
        if step.1 = 0 then
          misuse c 1 ("invalid Zero increment value: " ++ quoted (numbers[1]?.getD "0"))
        else
          let found := numbersFrom (scaleTo all first) (scaleTo all step) (scaleTo all last)
          let texts := found.map fun n => decimalText places (n / pow10 (all - places))
          let width := (texts.map String.length).foldl max 0
          let texts := if o.has 'w' then texts.map (fillZeros width) else texts
          let texts := match o.value? 'f' with
            | some form => texts.map (formatted form)
            | none => texts
          if !texts.isEmpty then
            put (Text.joinWith ((o.value? 's').getD "\n") texts ++ "\n")

/-- A line that is written again and again is written this often. -/
def manyTimes : Nat := 65536

def repeatLine (c : Call) : Task Unit := do
  let line := if c.args.isEmpty then "y" else Text.joinWith " " c.args
  put (String.join (List.replicate manyTimes (line ++ "\n")))

/-! ## Calculations with words -/

namespace Calculation

inductive Fault where
  | syntaxError (message : String)
  | other (message : String)
  deriving DecidableEq, Repr

abbrev Step := StateT (List String) (Except Fault)

def refuse {α : Type} (message : String) : Step α := throw (.syntaxError ("syntax error: " ++ message))

def isNull (s : String) : Bool :=
  let digits := match s.toList with
    | '-' :: ds => ds
    | ds => ds
  s = "" || (!digits.isEmpty && digits.all (· = '0'))

def integer? (s : String) : Option Int :=
  match s.toList with
  | '-' :: d :: ds =>
    if (d :: ds).all Char.isDigit then (String.ofList (d :: ds)).toInt?.map (- ·) else none
  | d :: ds => if (d :: ds).all Char.isDigit then (String.ofList (d :: ds)).toInt? else none
  | [] => none

def needInteger (s : String) : Step Int :=
  match integer? s with
  | some n => return n
  | none => throw (.other "non-integer argument")

/-- Takes the next word if it is the given one. -/
def accept (word : String) : Step Bool := do
  match ← get with
  | w :: rest =>
    if w = word then
      set rest
      return true
    else return false
  | [] => return false

def acceptAny : List String → Step (Option String)
  | [] => return none
  | w :: ws => do if ← accept w then return some w else acceptAny ws

/-- Remembers the last word that was taken, for messages. -/
def need (before : String) : Step Unit := do
  if (← get).isEmpty then refuse ("missing argument after " ++ quoted before)

/-- The match of an expression at the beginning of a text: the first group, or the length. -/
def matchStart (text pattern : String) : Step String := do
  match Regex.ofText .basic pattern with
  | .error message => throw (.other message)
  | .ok (r, groups) =>
    match (Regex.sequence .textStart r).find? false text.toList 0 with
    | some m =>
      if groups > 0 then return String.ofList (m.group text.toList 1)
      else return toString (m.stop - m.start)
    | none => return if groups > 0 then "" else "0"

def compareWith (op : String) (o : Ordering) : Bool :=
  match op with
  | "<" => o = .lt
  | "<=" => o ≠ .gt
  | "=" => o = .eq
  | "==" => o = .eq
  | "!=" => o ≠ .eq
  | ">=" => o ≠ .lt
  | _ => o = .gt

def truth (b : Bool) : String := if b then "1" else "0"

mutual

def either : Nat → Step String
  | 0 => refuse "unexpected argument"
  | fuel + 1 => do eitherFrom fuel (← both fuel)

def eitherFrom : Nat → String → Step String
  | 0, a => return a
  | fuel + 1, a => do
    if ← accept "|" then
      need "|"
      let b ← both fuel
      eitherFrom fuel (if !isNull a then a else if isNull b then "0" else b)
    else return a

def both : Nat → Step String
  | 0 => refuse "unexpected argument"
  | fuel + 1 => do bothFrom fuel (← comparison fuel)

def bothFrom : Nat → String → Step String
  | 0, a => return a
  | fuel + 1, a => do
    if ← accept "&" then
      need "&"
      let b ← comparison fuel
      bothFrom fuel (if isNull a || isNull b then "0" else a)
    else return a

def comparison : Nat → Step String
  | 0 => refuse "unexpected argument"
  | fuel + 1 => do comparisonFrom fuel (← sum fuel)

def comparisonFrom : Nat → String → Step String
  | 0, a => return a
  | fuel + 1, a => do
    match ← acceptAny ["<=", "<", "==", "=", "!=", ">=", ">"] with
    | some op =>
      need op
      let b ← sum fuel
      let order := match integer? a, integer? b with
        | some m, some n => compare m n
        | _, _ => compare a b
      comparisonFrom fuel (truth (compareWith op order))
    | none => return a

def sum : Nat → Step String
  | 0 => refuse "unexpected argument"
  | fuel + 1 => do sumFrom fuel (← product fuel)

def sumFrom : Nat → String → Step String
  | 0, a => return a
  | fuel + 1, a => do
    match ← acceptAny ["+", "-"] with
    | some op =>
      need op
      let b ← product fuel
      let m ← needInteger a
      let n ← needInteger b
      sumFrom fuel (toString (if op = "+" then m + n else m - n))
    | none => return a

def product : Nat → Step String
  | 0 => refuse "unexpected argument"
  | fuel + 1 => do productFrom fuel (← matching fuel)

def productFrom : Nat → String → Step String
  | 0, a => return a
  | fuel + 1, a => do
    match ← acceptAny ["*", "/", "%"] with
    | some op =>
      need op
      let b ← matching fuel
      let m ← needInteger a
      let n ← needInteger b
      if op = "*" then productFrom fuel (toString (m * n))
      else if n = 0 then throw (.other "division by zero")
      else productFrom fuel (toString (if op = "/" then m.tdiv n else m.tmod n))
    | none => return a

def matching : Nat → Step String
  | 0 => refuse "unexpected argument"
  | fuel + 1 => do matchingFrom fuel (← primary fuel)

def matchingFrom : Nat → String → Step String
  | 0, a => return a
  | fuel + 1, a => do
    if ← accept ":" then
      need ":"
      let b ← primary fuel
      matchingFrom fuel (← matchStart a b)
    else return a

def primary : Nat → Step String
  | 0 => refuse "unexpected argument"
  | fuel + 1 => do
    match ← get with
    | [] => refuse "missing argument"
    | w :: rest =>
      set rest
      match w with
      | "(" =>
        need "("
        let v ← either fuel
        match ← get with
        | ")" :: rest =>
          set rest
          return v
        | [] => refuse ("expecting ')' after " ++ quoted v)
        | other :: _ => refuse ("expecting ')' instead of " ++ quoted other)
      | ")" => refuse "unexpected ')'"
      | "+" =>
        need "+"
        match ← get with
        | v :: rest =>
          set rest
          return v
        | [] => refuse "missing argument"
      | "length" =>
        need w
        return toString (← matching fuel).length
      | "match" =>
        need w
        let a ← matching fuel
        need a
        matchStart a (← matching fuel)
      | "index" =>
        need w
        let a ← matching fuel
        need a
        let b ← matching fuel
        return toString (((a.toList.findIdx? b.toList.contains).map (· + 1)).getD 0)
      | "substr" =>
        need w
        let text ← matching fuel
        need text
        let start ← matching fuel
        need start
        let count ← matching fuel
        match integer? start, integer? count with
        | some i, some n =>
          if i ≤ 0 || n ≤ 0 then return ""
          else return String.ofList ((text.toList.drop (i - 1).toNat).take n.toNat)
        | _, _ => return ""
      | w => return w

end

def evaluate (args : List String) : Except Fault String := do
  let (v, rest) ← (either (16 * args.length + 32)).run args
  match rest with
  | [] => .ok v
  | other :: _ => .error (.syntaxError ("syntax error: unexpected argument " ++ quoted other))

end Calculation

/-- Calculates with words. The status tells whether the result is empty or zero. -/
def calculate (c : Call) : Task Unit := do
  let args := if c.args.head? = some "--" then c.args.drop 1 else c.args
  if args.isEmpty then misuse c 2 "missing operand"
  else
    match Calculation.evaluate args with
    | .error (.syntaxError message) => refuse c 2 message
    | .error (.other message) => refuse c 2 message
    | .ok v =>
      putLine v
      finish (if Calculation.isNull v then 1 else 0)

end CommandContract.Utility
