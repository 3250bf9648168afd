import CommandContract.Condition.Token
import CommandContract.Lookup

set_option autoImplicit false

/-!
# Conditions

A condition is `||` over `&&` over `!` over a parenthesised condition, a comparison of two operands
or one operand alone. It is read into an expression first, which needs no context, and the
expression then has a truth value in every context; so whether a condition is malformed never
depends on data. The empty condition is true.
-/
namespace CommandContract.Condition

inductive Operand where
  | literal (v : Value)
  | path (text : String)

inductive Expression where
  | either (a b : Expression)
  | both (a b : Expression)
  | negation (a : Expression)
  | compare (op : Comparison) (a b : Operand)
  | truth (a : Operand)

/-! ## Reading -/

def readOperand : List Token → Except Fault (Operand × List Token)
  | [] => .error .unexpectedEnd
  | .literal v :: rest => .ok (.literal v, rest)
  | .path p :: rest => .ok (.path p, rest)
  | token :: _ => .error (.expectedValue token)

/-- An operand, with the operand it is compared with if an operator follows. -/
def readComparison (tokens : List Token) : Except Fault (Expression × List Token) := do
  let (a, rest) ← readOperand tokens
  match rest with
  | .comparison op :: rest =>
    let (b, rest) ← readOperand rest
    .ok (.compare op a b, rest)
  | rest => .ok (.truth a, rest)

mutual

def readEither : Nat → List Token → Except Fault (Expression × List Token)
  | 0, _ => .error .unexpectedEnd
  | fuel + 1, tokens => do
    let (a, rest) ← readBoth fuel tokens
    moreEither fuel a rest

/-- Continues behind a first operand of `||`. -/
def moreEither : Nat → Expression → List Token → Except Fault (Expression × List Token)
  | fuel + 1, a, .either :: rest => do
    let (b, rest) ← readBoth fuel rest
    moreEither fuel (.either a b) rest
  | _, a, rest => .ok (a, rest)

def readBoth : Nat → List Token → Except Fault (Expression × List Token)
  | 0, _ => .error .unexpectedEnd
  | fuel + 1, tokens => do
    let (a, rest) ← readUnary fuel tokens
    moreBoth fuel a rest

/-- Continues behind a first operand of `&&`. -/
def moreBoth : Nat → Expression → List Token → Except Fault (Expression × List Token)
  | fuel + 1, a, .both :: rest => do
    let (b, rest) ← readUnary fuel rest
    moreBoth fuel (.both a b) rest
  | _, a, rest => .ok (a, rest)

def readUnary : Nat → List Token → Except Fault (Expression × List Token)
  | 0, _ => .error .unexpectedEnd
  | fuel + 1, .negation :: rest => do
    let (a, rest) ← readUnary fuel rest
    .ok (.negation a, rest)
  | fuel + 1, .opening :: rest => do
    let (a, rest) ← readEither fuel rest
    match rest with
    | .closing :: rest => .ok (a, rest)
    | _ => .error .expectedClosing
  | _ + 1, tokens => readComparison tokens

end

/-- At most four steps between two tokens. -/
def steps (tokens : List Token) : Nat := 4 * tokens.length + 4

def ofTokens (tokens : List Token) : Except Fault Expression := do
  let (e, rest) ← readEither (steps tokens) tokens
  match rest with
  | [] => .ok e
  | token :: _ => .error (.unexpectedToken token)

def containsPair (x y : Char) (cs : List Char) : Bool := (Text.cutAtPair? x y cs).isSome

/-- A condition may stand between double braces as a whole. -/
def unwrap (cs : List Char) : List Char :=
  match (Text.dropLeading? ['\x7b', '\x7b'] cs).bind (Text.dropTrailing? ['\x7d', '\x7d']) with
  | some inner =>
    if containsPair '\x7b' '\x7b' inner || containsPair '\x7d' '\x7d' inner then cs
    else Text.trim inner
  | none => cs

/-- The expression of a condition; nothing for the empty one. -/
def parse (cs : List Char) : Except Fault (Option Expression) :=
  let source := unwrap (Text.trim cs)
  if source.isEmpty then .ok none
  else do
    let tokens ← tokenize source
    let e ← ofTokens tokens
    .ok (some e)

/-! ## Meaning -/

/-- The quantity of a number, or of a string that spells one. -/
def quantity? : Value → Option Binary64
  | .number n => some n.toBinary
  | .string s => finiteBinary? s.trimBlank.toList
  | _ => none

/-- Equal quantities if one side is a number, else equal values. -/
def looselyEqual : Value → Value → Bool
  | a@(.number _), b => sameQuantity a b
  | a, b@(.number _) => sameQuantity a b
  | a, b => a.same b
where
  sameQuantity (a b : Value) : Bool :=
    match quantity? a, quantity? b with
    | some x, some y => x.same y
    | _, _ => false

/-- Strings by code point, all else by quantity; values without a quantity have no order. -/
def order? : Value → Value → Option Ordering
  | .string s, .string t => some (compareOfLessAndEq s t)
  | a, b =>
    match quantity? a, quantity? b with
    | some x, some y => some (compare x.units y.units)
    | _, _ => none

def Comparison.holds (op : Comparison) (a b : Value) : Bool :=
  match op with
  | eq => looselyEqual a b
  | ne => !looselyEqual a b
  | lt => (order? a b).any Ordering.isLT
  | le => (order? a b).any Ordering.isLE
  | gt => (order? a b).any Ordering.isGT
  | ge => (order? a b).any Ordering.isGE

/-- Which values count as true. -/
def truthy : Value → Bool
  | .null => false
  | .bool b => b
  | .number (.int n) => n != 0
  | .number (.float x) => !x.isZero
  | .string s => !s.isEmpty
  | .array items => !items.isEmpty
  | .object ms => !ms.isEmpty

/-- The value of an operand; a path that leads nowhere is `null`. -/
def Operand.value (context : Value) : Operand → Value
  | literal v => v
  | path p => (context.lookup? p).getD .null

def Expression.holds (context : Value) : Expression → Bool
  | either a b => a.holds context || b.holds context
  | both a b => a.holds context && b.holds context
  | negation a => !a.holds context
  | compare op a b => op.holds (a.value context) (b.value context)
  | truth a => truthy (a.value context)

structure Error where
  condition : String
  fault : Fault

def Error.message (e : Error) : String :=
  "Invalid condition '" ++ e.condition ++ "': " ++ e.fault.message

def evaluate (condition : String) (context : Value) : Except Error Bool :=
  match parse condition.toList with
  | .ok none => .ok true
  | .ok (some e) => .ok (e.holds context)
  | .error fault => .error ⟨condition, fault⟩

end CommandContract.Condition
