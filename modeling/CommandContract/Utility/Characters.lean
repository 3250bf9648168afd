import CommandContract.Shell.Format
import CommandContract.Shell.Pattern
import CommandContract.Utility.Task

set_option autoImplicit false

/-!
# Characters

Characters of the input are exchanged, removed, or kept once where they repeat. Sets are written as
characters, ranges, classes and escapes.
-/
namespace CommandContract.Utility

open Shell (readEscape isOfKind)

/-- A part of a set. -/
inductive SetPart where
  | chars (cs : List Char)
  | kind (name : String)
  /-- one character a number of times; without a number, as often as needed -/
  | repeated (c : Char) (count : Option Nat)
  deriving DecidableEq, Repr

def byteRange (low high : Nat) : List Char :=
  (List.range (high + 1 - low)).map fun n => byteChar (n + low)

def allBytes : List Char := byteRange 0 255

def kindNames : List String :=
  ["alnum", "alpha", "blank", "cntrl", "digit", "graph", "lower", "print", "punct", "space", "upper",
    "xdigit"]

/-- The name between `[:` and `:]`, and what follows. -/
def kindAt? (cs : List Char) : Option (String × List Char) :=
  match cs with
  | '[' :: ':' :: rest =>
    let (name, rest) := rest.span Char.isAlpha
    match rest with
    | ':' :: ']' :: rest => some (String.ofList name, rest)
    | _ => none
  | _ => none

/-- One character, which may be escaped, and what follows. -/
def setChar : List Char → Option (Char × List Char)
  | [] => none
  | ['\\'] => some ('\\', [])
  | '\\' :: c :: cs =>
    match readEscape false (c :: cs) with
    | ([d], rest) => some (d, rest)
    | _ => some (c, cs)
  | c :: cs => some (c, cs)

/-- A repeated character behind its bracket, and what follows. -/
def repeatedAt? (cs : List Char) : Option (SetPart × List Char) :=
  match cs with
  | '[' :: rest =>
    match setChar rest with
    | some (c, '*' :: rest) =>
      let (digits, rest) := rest.span Char.isDigit
      match rest with
      | ']' :: rest =>
        let base := if digits.head? = some '0' then 8 else 10
        let n := digits.foldl (fun n d => base * n + (d.toNat - 48)) 0
        some (.repeated c (if n = 0 then none else some n), rest)
      | _ => none
    | _ => none
  | _ => none

/-- The parts of a set, or what is wrong with it. -/
def setParts : Nat → List Char → Except String (List SetPart)
  | 0, _ => .ok []
  | _ + 1, [] => .ok []
  | fuel + 1, cs =>
    match kindAt? cs with
    | some (name, rest) =>
      if kindNames.contains name then (setParts fuel rest).map (.kind name :: ·)
      else .error ("invalid character class " ++ quoted name)
    | none =>
      match cs with
      | '[' :: '=' :: c :: '=' :: ']' :: rest => (setParts fuel rest).map (.chars [c] :: ·)
      | cs =>
        match repeatedAt? cs with
        | some (part, rest) => (setParts fuel rest).map (part :: ·)
        | none =>
          match setChar cs with
          | none => .ok []
          | some (low, '-' :: d :: rest) =>
            match setChar (d :: rest) with
            | some (high, rest) =>
              if high < low then
                .error ("range-endpoints of '" ++ String.ofList [low, '-', high] ++
                  "' are in reverse collating sequence order")
              else (setParts fuel rest).map (.chars (byteRange low.toNat high.toNat) :: ·)
            | none => .ok [.chars [low]]
          | some (c, rest) => (setParts fuel rest).map (.chars [c] :: ·)

def SetPart.size : SetPart → Nat
  | .chars cs => cs.length
  | .kind name => (allBytes.filter (isOfKind name)).length
  | .repeated _ count => count.getD 0

/-- The characters of a part; an open repetition has as many as are asked for. -/
def SetPart.members (fill : Nat) : SetPart → List Char
  | .chars cs => cs
  | .kind name => allBytes.filter (isOfKind name)
  | .repeated c count => List.replicate (count.getD fill) c

/-- The characters of a set that is filled up to a size. -/
def membersOf (size : Nat) (parts : List SetPart) : List Char :=
  let known := (parts.map SetPart.size).foldl (· + ·) 0
  parts.flatMap (SetPart.members (size - known))

/-- What a set lacks, if it is to be turned round. -/
def completed (complement : Bool) (cs : List Char) : List Char :=
  if complement then allBytes.filter fun c => !cs.contains c else cs

/-- A table for all bytes. Of several partners of a byte the last one counts. -/
def exchangeTable (old new : List Char) : Array Char :=
  let same := Array.ofFn fun i : Fin 256 => Char.ofNat i
  (old.zip new).foldl (fun t (a, b) => t.setIfInBounds a.toNat b) same

/-- Keeps one of neighbouring characters that repeat. -/
def squeeze (isSqueezed : Char → Bool) (cs : List Char) : List Char :=
  (cs.foldl (fun kept c =>
    match kept with
    | last :: _ => if c = last && isSqueezed c then kept else c :: kept
    | [] => [c]) []).reverse

def exchangeForms : List OptionForm := [
  flag 'c' "complement", flag 'C' "", flag 'd' "delete", flag 's' "squeeze-repeats",
  flag 't' "truncate-set1"]

/-- The second set, filled up with its last character. -/
def filledTo (size : Nat) (cs : List Char) : List Char :=
  match cs.getLast? with
  | some last => cs ++ List.replicate (size - cs.length) last
  | none => []

def exchange (c : Call) : Task Unit :=
  match readOptions exchangeForms false c.args with
  | .error message => misuse c 1 message
  | .ok o => do
    let complement := o.has 'c' || o.has 'C'
    let deletes := o.has 'd'
    let squeezes := o.has 's'
    let exchanges := !deletes && (o.operands.length = 2)
    let least := if deletes = squeezes then 2 else 1
    let most := if deletes && !squeezes then 1 else 2
    match o.operands with
    | [] => misuse c 1 "missing operand"
    | first :: rest =>
      if o.operands.length < least then
        misuse c 1 ("missing operand after " ++ quoted first ++ "\n" ++
          (if squeezes then "Two strings must be given when both deleting and squeezing repeats."
          else "Two strings must be given when translating."))
      else if o.operands.length > most then
        misuse c 1 ("extra operand " ++ quoted (o.operands[most]?.getD "") ++
          (if o.operands.length = 2 then
            "\nOnly one string may be given when deleting without squeezing repeats."
          else ""))
      else
        let second := rest.headD ""
        match setParts (first.length + 1) first.toList, setParts (second.length + 1) second.toList with
        | .error message, _ => refuse c 1 message
        | _, .error message => refuse c 1 message
        | .ok one, .ok two =>
          let old := completed complement (membersOf 0 one)
          let new := membersOf old.length two
          if exchanges && new.isEmpty && !o.has 't' then
            refuse c 1 "when not truncating set1, string2 must be non-empty"
          else
            match ← readInput with
            | .error cause => refuse c 1 ("read error: " ++ cause.reason)
            | .ok text =>
              let table := exchangeTable old (if o.has 't' then new else filledTo old.length new)
              let inOld (ch : Char) : Bool := old.contains ch
              let cs := text.toList
              let cs := if deletes then cs.filter fun ch => !inOld ch else cs
              let cs := if exchanges then cs.map fun ch => table[ch.toNat]?.getD ch else cs
              let cs :=
                if squeezes then
                  squeeze (if deletes || exchanges then new.contains else inOld) cs
                else cs
              put (String.ofList cs)

end CommandContract.Utility
