import CommandContract.Members
import CommandContract.Number.Power
import CommandContract.Shell.Bytes

set_option autoImplicit false

/-!
# Calculations

Expressions over integers of 64 bits, which wrap around. A name stands for the number that its
variable holds, and may be assigned to. What is not evaluated, because of a condition, assigns
nothing.
-/
namespace CommandContract.Shell.Arithmetic

inductive Symbol where
  | number (n : Int)
  | name (s : String)
  | sign (s : String)
  | finish
  deriving DecidableEq, Repr

/-- Cut to 64 bits with a sign. -/
def wrap (n : Int) : Int := Int.bmod n (pow2 64)

def signs : List String := [
  "<<=", ">>=", "&&", "||", "<<", ">>", "<=", ">=", "==", "!=", "+=", "-=", "*=", "/=", "%=", "&=",
  "^=", "|=", "+", "-", "*", "/", "%", "<", ">", "&", "^", "|", "!", "~", "(", ")", "?", ":", "="]

def sign? (cs : List Char) : Option (String × List Char) :=
  (signs.find? fun s => s.toList.isPrefixOf cs).map fun s => (s, cs.drop s.length)

def digitOf? (base : Nat) (c : Char) : Option Nat :=
  let value :=
    if c.isDigit then c.toNat - 48
    else if 'a' ≤ c ∧ c ≤ 'z' then c.toNat - 87
    else if 'A' ≤ c ∧ c ≤ 'Z' then c.toNat - 55
    else 99
  if value < base then some value else none

/-- Digits of a base, as a number, and what follows them. -/
def readDigits (base : Nat) : Nat → List Char → Nat × List Char
  | n, [] => (n, [])
  | n, c :: cs =>
    match digitOf? base c with
    | some d => readDigits base (n * base + d) cs
    | none => (n, c :: cs)

def greatest : Int := 9223372036854775807

/-- A number without a sign, its base told by its first characters. -/
def readNumber (cs : List Char) : Nat × List Char :=
  match cs with
  | '0' :: x :: d :: rest =>
    if (x = 'x' ∨ x = 'X') ∧ (digitOf? 16 d).isSome then readDigits 16 0 (d :: rest)
    else readDigits 8 0 cs
  | '0' :: _ => readDigits 8 0 cs
  | cs => readDigits 10 0 cs

def symbols : Nat → List Char → List Symbol
  | 0, _ => [.finish]
  | _ + 1, [] => [.finish]
  | fuel + 1, c :: cs =>
    if isSpaceChar c then symbols fuel cs
    else if c.isDigit then
      let (n, rest) := readNumber (c :: cs)
      .number (min n greatest) :: symbols fuel rest
    else if isNameStart c then
      let (name, rest) := (c :: cs).span isNameChar
      .name (String.ofList name) :: symbols fuel rest
    else
      match sign? (c :: cs) with
      | some (s, rest) => .sign s :: symbols fuel rest
      | none => [.sign "", .finish]

/-- What a calculation works on: the symbols to come, and the values given to names. -/
structure Work where
  left : List Symbol
  given : Members String

inductive Trouble where
  /-- the expression is at fault -/
  | expression (message : String)
  /-- a variable holds no number -/
  | notNumber (message : String)
  deriving DecidableEq, Repr

/-- What is said about an expression. -/
def Trouble.message (text : String) : Trouble → String
  | expression message => "arithmetic expression: " ++ message ++ ": \"" ++ text ++ "\""
  | notNumber message => message

/-- Finds the number of a variable. -/
abbrev Finder := Members String → String → Except Trouble Int

abbrev Step := StateT Work (Except Trouble)

def fail {α : Type} (message : String) : Step α := throw (.expression message)

def next : Step Symbol := do
  match (← get).left with
  | s :: rest =>
    set { (← get) with left := rest }
    return s
  | [] => return .finish

def look : Step Symbol := return ((← get).left.head?).getD .finish

/-- The binding strength of the signs between two operands. -/
def strength? : String → Option Nat
  | "*" => some 8
  | "/" => some 8
  | "%" => some 8
  | "+" => some 7
  | "-" => some 7
  | "<<" => some 6
  | ">>" => some 6
  | "<" => some 5
  | ">" => some 5
  | "<=" => some 5
  | ">=" => some 5
  | "==" => some 4
  | "!=" => some 4
  | "&" => some 3
  | "^" => some 2
  | "|" => some 1
  | _ => none

def truth (b : Bool) : Int := if b then 1 else 0

/-- The bits of a number, as one without a sign. -/
def bits (n : Int) : Nat := (n % (pow2 64 : Int)).toNat

def combine (op : String) (a b : Int) : Except Trouble Int :=
  match op with
  | "*" => .ok (wrap (a * b))
  | "/" => if b = 0 then .error (.expression "division by zero") else .ok (wrap (a.tdiv b))
  | "%" => if b = 0 then .error (.expression "division by zero") else .ok (wrap (a.tmod b))
  | "+" => .ok (wrap (a + b))
  | "-" => .ok (wrap (a - b))
  | "<<" => .ok (wrap (a * pow2 (b % 64).toNat))
  | ">>" => .ok (a.fdiv (pow2 (b % 64).toNat))
  | "<" => .ok (truth (a < b))
  | ">" => .ok (truth (b < a))
  | "<=" => .ok (truth (a ≤ b))
  | ">=" => .ok (truth (b ≤ a))
  | "==" => .ok (truth (a = b))
  | "!=" => .ok (truth (a ≠ b))
  | "&" => .ok (wrap (Nat.land (bits a) (bits b)))
  | "^" => .ok (wrap (Nat.xor (bits a) (bits b)))
  | "|" => .ok (wrap (Nat.lor (bits a) (bits b)))
  | _ => .error (.expression "expecting EOF")

/-- The operator of an assignment, empty for a plain one. -/
def assigning? : Symbol → Option String
  | .sign "=" => some ""
  | .sign "+=" => some "+"
  | .sign "-=" => some "-"
  | .sign "*=" => some "*"
  | .sign "/=" => some "/"
  | .sign "%=" => some "%"
  | .sign "<<=" => some "<<"
  | .sign ">>=" => some ">>"
  | .sign "&=" => some "&"
  | .sign "^=" => some "^"
  | .sign "|=" => some "|"
  | _ => none

def lift {α : Type} : Except Trouble α → Step α
  | .ok a => pure a
  | .error e => throw e

mutual

/-- An assignment, or a condition. `live` says whether it is evaluated. -/
def assignment (find : Finder) : Nat → Bool → Step Int
  | 0, _ => fail "expecting primary"
  | fuel + 1, live => do
    match (← get).left with
    | .name x :: op :: rest =>
      match assigning? op with
      | none => condition find fuel live
      | some op =>
        set { (← get) with left := rest }
        let v ← assignment find fuel live
        if live then
          let v ← if op = "" then pure v else do
            let old ← lift (find (← get).given x)
            lift (combine op old v)
          modify fun w => { w with given := Members.put x (toString v) w.given }
          return v
        else return v
    | _ => condition find fuel live

def condition (find : Finder) : Nat → Bool → Step Int
  | 0, _ => fail "expecting primary"
  | fuel + 1, live => do
    let a ← anyOf find fuel live
    if (← look) = .sign "?" then
      let _ ← next
      let b ← assignment find fuel (live && a ≠ 0)
      if (← look) = .sign ":" then
        let _ ← next
        let c ← condition find fuel (live && a = 0)
        return if a ≠ 0 then b else c
      else fail "expecting ':'"
    else return a

def anyOf (find : Finder) : Nat → Bool → Step Int
  | 0, _ => fail "expecting primary"
  | fuel + 1, live => do
    let a ← allOf find fuel live
    if (← look) = .sign "||" then
      let _ ← next
      let b ← anyOf find fuel (live && a = 0)
      return truth (a ≠ 0 || b ≠ 0)
    else return a

def allOf (find : Finder) : Nat → Bool → Step Int
  | 0, _ => fail "expecting primary"
  | fuel + 1, live => do
    let a ← operand find fuel live
    let a ← operation find fuel live a 1
    if (← look) = .sign "&&" then
      let _ ← next
      let b ← allOf find fuel (live && a ≠ 0)
      return truth (a ≠ 0 && b ≠ 0)
    else return a

/-- Goes on behind an operand with signs of at least a strength. -/
def operation (find : Finder) : Nat → Bool → Int → Nat → Step Int
  | 0, _, _, _ => fail "expecting primary"
  | fuel + 1, live, a, least => do
    match ← look with
    | .sign op =>
      match strength? op with
      | none => return a
      | some s =>
        if s < least then return a
        else
          let _ ← next
          let b ← operand find fuel live
          let b ← operation find fuel live b (s + 1)
          let v ← if live then lift (combine op a b) else pure a
          operation find fuel live v least
    | _ => return a

def operand (find : Finder) : Nat → Bool → Step Int
  | 0, _ => fail "expecting primary"
  | fuel + 1, live => do
    match ← next with
    | .number n => return n
    | .name x => if live then lift (find (← get).given x) else return 0
    | .sign "(" =>
      let v ← assignment find fuel live
      if (← look) = .sign ")" then
        let _ ← next
        return v
      else fail "expecting ')'"
    | .sign "+" => operand find fuel live
    | .sign "-" => return wrap (-(← operand find fuel live))
    | .sign "!" => return truth ((← operand find fuel live) = 0)
    | .sign "~" => return wrap (-(← operand find fuel live) - 1)
    | _ => fail "expecting primary"

end

/-- The value of an expression, and the values it gives to names. -/
def evaluate (find : Finder) (text : String) : Except Trouble (Int × Members String) := do
  let work : Work := ⟨symbols (text.length + 1) text.toList, []⟩
  let (v, w) ← (do
    let v ← assignment find (8 * text.length + 16) true
    if (← look) = Symbol.finish then return v else fail "expecting EOF").run work
  return (v, w.given)

end CommandContract.Shell.Arithmetic
