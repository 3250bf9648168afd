import CommandContract.Shell.Pattern

set_option autoImplicit false

/-!
# Regular expressions

Expressions in the basic and in the extended notation. Of all matches the first one counts, and of
those that begin there the longest.
-/
namespace CommandContract.Utility

inductive Regex where
  | empty
  | among (negated : Bool) (members : List Shell.Member)
  | anyOne
  | textStart
  | textEnd
  | wordEdge (negated : Bool)
  | wordStart
  | wordEnd
  /-- no character of a word stands in front, or behind -/
  | noWordBefore
  | noWordBehind
  | sequence (a b : Regex)
  | either (a b : Regex)
  | repeated (a : Regex) (least : Nat) (most : Option Nat)
  | group (number : Nat) (a : Regex)
  | again (number : Nat)
  deriving Repr

namespace Regex

def ofChar (c : Char) : Regex := .among false [.range c c]

/-! ## Reading -/

inductive Notation where
  | basic
  | extended
  deriving DecidableEq, Repr

/-- What is left to read, and how many groups have begun. -/
structure Cursor where
  rest : List Char
  groups : Nat
  /-- the groups that are still open -/
  depth : Nat

abbrev Reading := StateT Cursor (Except String)

def fail {α : Type} (message : String) : Reading α := throw message

def advance (n : Nat) : Reading Unit := modify fun c => { c with rest := c.rest.drop n }

/-- The members of brackets up to the closing one. A backslash is an ordinary character. -/
def members : Nat → Bool → List Char → Except String (List Shell.Member × List Char)
  | 0, _, _ => .error "Unmatched [, [^, [:, [., or [="
  | _ + 1, _, [] => .error "Unmatched [, [^, [:, [., or [="
  | fuel + 1, first, c :: cs =>
    if c = ']' ∧ !first then .ok ([], cs)
    else
      match Shell.className? (c :: cs) with
      | some (name, rest) =>
        if ["alpha", "digit", "alnum", "upper", "lower", "space", "blank", "punct", "print", "graph",
            "cntrl", "xdigit"].contains name then
          (members fuel false rest).map fun (ms, left) => (.kind name :: ms, left)
        else .error "Invalid character class name"
      | none =>
        match c, cs with
        | '[', '=' :: d :: '=' :: ']' :: rest =>
          (members fuel false rest).map fun (ms, left) => (.range d d :: ms, left)
        | '[', '.' :: d :: '.' :: ']' :: rest =>
          (members fuel false rest).map fun (ms, left) => (.range d d :: ms, left)
        | c, '-' :: d :: rest =>
          if d = ']' then (members fuel false cs).map fun (ms, left) => (.range c c :: ms, left)
          else if d < c then .error "Invalid range end"
          else (members fuel false rest).map fun (ms, left) => (.range c d :: ms, left)
        | c, cs => (members fuel false cs).map fun (ms, left) => (.range c c :: ms, left)

def wordMembers : List Shell.Member := [.kind "alnum", .range '_' '_']

/-- Escapes that both notations know. -/
def commonEscape? (c : Char) : Option Regex :=
  match c with
  | 'w' => some (.among false wordMembers)
  | 'W' => some (.among true wordMembers)
  | 's' => some (.among false [.kind "space"])
  | 'S' => some (.among true [.kind "space"])
  | 'b' => some (.wordEdge false)
  | 'B' => some (.wordEdge true)
  | '<' => some .wordStart
  | '>' => some .wordEnd
  | '\x60' => some .textStart
  | '\'' => some .textEnd
  | _ => none

/-- The operators of the notation, whether written with a backslash or without. -/
inductive Operator where
  | star
  | plus
  | optional
  | bounds
  | bar
  | opens
  | closes
  deriving DecidableEq, Repr

/-- The operator that comes next, and its length. -/
def operator? (n : Notation) (cs : List Char) : Option (Operator × Nat) :=
  match n, cs with
  | _, '*' :: _ => some (.star, 1)
  | .basic, '\\' :: '+' :: _ => some (.plus, 2)
  | .basic, '\\' :: '?' :: _ => some (.optional, 2)
  | .basic, '\\' :: '\x7b' :: _ => some (.bounds, 2)
  | .basic, '\\' :: '|' :: _ => some (.bar, 2)
  | .basic, '\\' :: '(' :: _ => some (.opens, 2)
  | .basic, '\\' :: ')' :: _ => some (.closes, 2)
  | .extended, '+' :: _ => some (.plus, 1)
  | .extended, '?' :: _ => some (.optional, 1)
  | .extended, '\x7b' :: _ => some (.bounds, 1)
  | .extended, '|' :: _ => some (.bar, 1)
  | .extended, '(' :: _ => some (.opens, 1)
  | .extended, ')' :: _ => some (.closes, 1)
  | _, _ => none

def number? (ds : List Char) : Option Nat :=
  if ds.isEmpty then none else some (ds.foldl (fun n c => 10 * n + (c.toNat - 48)) 0)

/-- The bounds of a repetition behind its opening brace, and what follows. -/
def bounds? (n : Notation) (cs : List Char) : Option (Nat × Option Nat × List Char) := do
  let (low, rest) := cs.span Char.isDigit
  let closing := if n = .basic then ['\\', '\x7d'] else ['\x7d']
  match rest with
  | ',' :: rest =>
    let (high, rest) := rest.span Char.isDigit
    let rest ← Text.dropLeading? closing rest
    some ((number? low).getD 0, number? high, rest)
  | rest =>
    let rest ← Text.dropLeading? closing rest
    let low ← number? low
    some (low, some low, rest)

/-- Behind the beginning, an opening parenthesis or a bar a circumflex stands for the start. -/
def isAnchorEnd (n : Notation) (rest : List Char) : Bool :=
  match n with
  | .extended => true
  | .basic =>
    match rest with
    | [] => true
    | '\\' :: ')' :: _ => true
    | '\\' :: '|' :: _ => true
    | _ => false

mutual

/-- Alternatives up to a closing parenthesis or the end. -/
def readEither (n : Notation) : Nat → Reading Regex
  | 0 => fail "Regular expression too big"
  | fuel + 1 => do
    let a ← readSequence n fuel true .empty
    match operator? n (← get).rest with
    | some (.bar, length) =>
      advance length
      return .either a (← readEither n fuel)
    | _ => return a

/-- Pieces one after the other. -/
def readSequence (n : Notation) : Nat → Bool → Regex → Reading Regex
  | 0, _, _ => fail "Regular expression too big"
  | fuel + 1, first, before => do
    let cs := (← get).rest
    match cs with
    | [] => return before
    | c :: rest =>
      match operator? n cs with
      | some (.bar, _) => return before
      | some (.closes, length) =>
        if (← get).depth > 0 then return before
        else if n = .extended then
          advance length
          readRepeats n fuel before (ofChar ')')
        else fail "Unmatched ) or \\)"
      | some (.opens, length) =>
        advance length
        let number := (← get).groups + 1
        modify fun c => { c with groups := number, depth := c.depth + 1 }
        let inner ← readEither n fuel
        match operator? n (← get).rest with
        | some (.closes, length) =>
          advance length
          modify fun c => { c with depth := c.depth - 1 }
          readRepeats n fuel before (.group number inner)
        | _ => fail "Unmatched ( or \\("
      | some (.star, _) =>
        advance 1
        if first && n = .extended then readSequence n fuel true before
        else readRepeats n fuel before (ofChar '*')
      | some (.bounds, length) =>
        if n = .basic && first then fail "Invalid preceding regular expression"
        else
          advance length
          readRepeats n fuel before (ofChar '\x7b')
      | some (_, length) =>
        advance length
        if n = .extended && first then readSequence n fuel true before
        else readRepeats n fuel before (ofChar ((cs.drop (length - 1)).headD '+'))
      | none =>
        advance 1
        if c = '\\' then
          match rest with
          | [] => fail "Trailing backslash"
          | d :: _ =>
            advance 1
            if d.isDigit && d ≠ '0' then
              if d.toNat - 48 ≤ (← get).groups then readRepeats n fuel before (.again (d.toNat - 48))
              else fail "Invalid back reference"
            else
              match commonEscape? d with
              | some e => readRepeats n fuel before e
              | none =>
                readRepeats n fuel before
                  (ofChar (if d = 'n' then '\n' else if d = 't' then '\t' else d))
        else if c = '.' then readRepeats n fuel before .anyOne
        else if c = '[' then
          let (negated, body) := match rest with
            | '^' :: body => (true, body)
            | body => (false, body)
          match members (body.length + 1) true body with
          | .error message => fail message
          | .ok (ms, left) =>
            modify fun c => { c with rest := left }
            readRepeats n fuel before (.among negated ms)
        else if c = '^' && (first || n = .extended) then
          readSequence n fuel true (.sequence before .textStart)
        else if c = '$' && isAnchorEnd n rest then readSequence n fuel false (.sequence before .textEnd)
        else readRepeats n fuel before (ofChar c)

/-- Repetitions behind a piece. -/
def readRepeats (n : Notation) : Nat → Regex → Regex → Reading Regex
  | 0, _, _ => fail "Regular expression too big"
  | fuel + 1, before, piece => do
    let cs := (← get).rest
    match operator? n cs with
    | some (.star, length) =>
      advance length
      readRepeats n fuel before (.repeated piece 0 none)
    | some (.plus, length) =>
      advance length
      readRepeats n fuel before (.repeated piece 1 none)
    | some (.optional, length) =>
      advance length
      readRepeats n fuel before (.repeated piece 0 (some 1))
    | some (.bounds, length) =>
      match bounds? n (cs.drop length) with
      | some (low, high, rest) =>
        modify fun c => { c with rest }
        if high.any (· < low) then fail "Invalid content of \\\x7b\\\x7d"
        else readRepeats n fuel before (.repeated piece low high)
      | none =>
        if n = .basic then
          fail (if (cs.drop length).contains '\\' then "Invalid content of \\\x7b\\\x7d"
            else "Unmatched \\\x7b")
        else readSequence n fuel false (.sequence before piece)
    | _ => readSequence n fuel false (.sequence before piece)

end

/-- Reads an expression, and the number of its groups. -/
def ofText (n : Notation) (text : String) : Except String (Regex × Nat) := do
  let cs := text.toList
  let (r, cursor) ← (readEither n (8 * cs.length + 16)).run ⟨cs, 0, 0⟩
  match cursor.rest with
  | [] => .ok (r, cursor.groups)
  | _ => .error "Unmatched ) or \\)"

/-! ## Matching -/

/-- A place in a text, with the groups that were matched: number, start and end. -/
structure Point where
  index : Nat
  last : Option Char
  rest : List Char
  groups : List (Nat × Nat × Nat)

/-- What is still to be matched. -/
inductive Todo where
  | expression (r : Regex)
  | close (number start : Nat)
  /-- something was consumed since a place -/
  | progress (start : Nat)

def isWordChar (c : Option Char) : Bool :=
  match c with
  | some c => c.isAlphanum || c = '_'
  | none => false

/-- The match that ends later; the first one if both end at one place. -/
def longer (a b : Option Point) : Option Point :=
  match a, b with
  | some p, some q => if p.index < q.index then some q else some p
  | some p, none => some p
  | none, b => b

structure Setting where
  text : List Char
  foldsCase : Bool

def Setting.fits (s : Setting) (negated : Bool) (members : List Shell.Member) (c : Char) : Bool :=
  let holds (c : Char) : Bool := members.any (Shell.Member.holds c)
  let found := if s.foldsCase then holds c.toLower || holds c.toUpper else holds c
  found != negated

/-- The longest match of what is to be done, from a point on. -/
def search (s : Setting) : Nat → List Todo → Point → Option Point
  | 0, _, _ => none
  | _ + 1, [], p => some p
  | fuel + 1, t :: todo, p =>
    let next (ok : Bool) : Option Point :=
      match p.rest with
      | c :: cs =>
        if ok then search s fuel todo ⟨p.index + 1, some c, cs, p.groups⟩ else none
      | [] => none
    let when (ok : Bool) : Option Point := if ok then search s fuel todo p else none
    match t with
    | .close number start =>
      search s fuel todo { p with
        groups := (number, start, p.index) :: p.groups.filter (·.1 ≠ number) }
    | .progress start => when (start < p.index)
    | .expression r =>
      match r with
      | .empty => when true
      | .anyOne => next true
      | .among negated members =>
        match p.rest with
        | c :: _ => next (s.fits negated members c)
        | [] => none
      | .textStart => when (p.index = 0)
      | .textEnd => when p.rest.isEmpty
      | .wordEdge negated => when ((isWordChar p.last != isWordChar p.rest.head?) != negated)
      | .wordStart => when (!isWordChar p.last && isWordChar p.rest.head?)
      | .wordEnd => when (isWordChar p.last && !isWordChar p.rest.head?)
      | .noWordBefore => when (!isWordChar p.last)
      | .noWordBehind => when (!isWordChar p.rest.head?)
      | .sequence a b => search s fuel (.expression a :: .expression b :: todo) p
      | .either a b =>
        match search s fuel (.expression a :: todo) p with
        | some q =>
          if q.rest.isEmpty then some q
          else longer (some q) (search s fuel (.expression b :: todo) p)
        | none => search s fuel (.expression b :: todo) p
      | .repeated a (least + 1) most =>
        search s fuel (.expression a :: .expression (.repeated a least (most.map (· - 1))) :: todo) p
      | .repeated _ 0 (some 0) => when true
      | .repeated a 0 most =>
        let again := .repeated a 0 (most.map (· - 1))
        let more := .expression a :: .progress p.index :: .expression again :: todo
        match search s fuel more p with
        | some q => if q.rest.isEmpty then some q else longer (some q) (when true)
        | none => when true
      | .group number a => search s fuel (.expression a :: .close number p.index :: todo) p
      | .again number =>
        match p.groups.find? (·.1 = number) with
        | none => none
        | some (_, start, stop) =>
          let taken := (s.text.drop start).take (stop - start)
          match Text.dropLeading? taken p.rest with
          | some rest =>
            let last := if taken.isEmpty then p.last else taken.getLast?
            search s fuel todo ⟨p.index + taken.length, last, rest, p.groups⟩
          | none => none

def size : Regex → Nat
  | sequence a b => a.size + b.size + 1
  | either a b => a.size + b.size + 1
  | repeated a least most => (a.size + 3) * (least + most.getD 0 + 1) + 3
  | group _ a => a.size + 2
  | _ => 1

/-- A match: where it starts and ends, and its groups. -/
structure Match where
  start : Nat
  stop : Nat
  groups : List (Nat × Nat × Nat)

/-- The first place from an index on where an expression matches. -/
def findFrom (s : Setting) (r : Regex) (steps : Nat) : Nat → Option Char → List Char → Option Match
  | index, last, rest =>
    match search s steps [.expression r] ⟨index, last, rest, []⟩ with
    | some p => some ⟨index, p.index, p.groups⟩
    | none =>
      match rest with
      | [] => none
      | c :: cs => findFrom s r steps (index + 1) (some c) cs

/-- The first and longest match from an index on. -/
def find? (r : Regex) (foldsCase : Bool) (text : List Char) (index : Nat) : Option Match :=
  let steps := (r.size + 4) * (text.length + 2)
  findFrom ⟨text, foldsCase⟩ r steps index (if index = 0 then none else text[index - 1]?)
    (text.drop index)

/-- The text of a group of a match. -/
def Match.group (m : Match) (text : List Char) (number : Nat) : List Char :=
  if number = 0 then (text.drop m.start).take (m.stop - m.start)
  else
    match m.groups.find? (·.1 = number) with
    | some (_, start, stop) => (text.drop start).take (stop - start)
    | none => []

end Regex

end CommandContract.Utility
