import CommandContract.Shell.Bytes

set_option autoImplicit false

/-!
# Patterns

`*` stands for any text, `?` for any character, and brackets for one of some characters. A quoted
character stands for itself.
-/
namespace CommandContract.Shell

/-- A character of a word, and whether it is quoted. -/
structure Glyph where
  char : Char
  quoted : Bool
  deriving DecidableEq, Repr

abbrev Glyphs := List Glyph

def Glyphs.text (gs : Glyphs) : String := String.ofList (gs.map (·.char))

def Glyphs.ofText (s : String) (quoted : Bool) : Glyphs := s.toList.map fun c => ⟨c, quoted⟩

/-- What may stand in brackets. -/
inductive Member where
  | range (low high : Char)
  | kind (name : String)
  deriving DecidableEq, Repr

inductive PatternItem where
  | one (c : Char)
  | anyOne
  | anyText
  | among (negated : Bool) (members : List Member)
  deriving DecidableEq, Repr

/-- The classes of characters that have names. -/
def isOfKind (name : String) (c : Char) : Bool :=
  match name with
  | "alpha" => c.isAlpha
  | "digit" => c.isDigit
  | "alnum" => c.isAlphanum
  | "upper" => c.isUpper
  | "lower" => c.isLower
  | "space" => isSpaceChar c
  | "blank" => c = ' ' || c = '\t'
  | "punct" => 0x20 < c.toNat && c.toNat < 0x7F && !c.isAlphanum
  | "print" => 0x20 ≤ c.toNat && c.toNat < 0x7F
  | "graph" => 0x20 < c.toNat && c.toNat < 0x7F
  | "cntrl" => c.toNat < 0x20 || c.toNat = 0x7F
  | "xdigit" => c.isDigit || ('a' ≤ c && c ≤ 'f') || ('A' ≤ c && c ≤ 'F')
  | _ => false

def Member.holds (c : Char) : Member → Bool
  | .range low high => low ≤ c && c ≤ high
  | .kind name => isOfKind name c

/-- The name of a class between `[:` and `:]`, and what follows it. -/
def className? (cs : List Char) : Option (String × List Char) :=
  match cs with
  | '[' :: ':' :: rest =>
    let (name, rest) := rest.span Char.isAlpha
    match rest with
    | ':' :: ']' :: rest => some (String.ofList name, rest)
    | _ => none
  | _ => none

/-- The members of brackets up to the closing one, which may come first as a member. Quoted
characters are members. -/
def bracketMembers : Nat → Bool → Glyphs → Option (List Member × Glyphs)
  | 0, _, _ => none
  | _ + 1, _, [] => none
  | fuel + 1, first, g :: gs =>
    if g.char = ']' ∧ !g.quoted ∧ !first then some ([], gs)
    else
      let class? := if g.quoted then none else className? ((g :: gs).map (·.char))
      match class? with
      | some (name, rest) => do
        let (more, left) ← bracketMembers fuel false ((g :: gs).drop (gs.length + 1 - rest.length))
        some (.kind name :: more, left)
      | none =>
        match gs with
        | ⟨'-', false⟩ :: high :: rest =>
          if high.char = ']' ∧ !high.quoted then do
            let (more, left) ← bracketMembers fuel false gs
            some (.range g.char g.char :: more, left)
          else do
            let (more, left) ← bracketMembers fuel false rest
            some (.range g.char high.char :: more, left)
        | gs => do
          let (more, left) ← bracketMembers fuel false gs
          some (.range g.char g.char :: more, left)

/-- Brackets and what follows them, behind the opening one. -/
def brackets? (gs : Glyphs) : Option (PatternItem × Glyphs) :=
  let (negated, body) :=
    match gs with
    | ⟨'!', false⟩ :: rest => (true, rest)
    | ⟨'^', false⟩ :: rest => (true, rest)
    | gs => (false, gs)
  (bracketMembers (body.length + 1) true body).map fun (members, rest) =>
    (.among negated members, rest)

def patternFrom : Nat → Glyphs → List PatternItem
  | 0, _ => []
  | _ + 1, [] => []
  | fuel + 1, g :: gs =>
    if g.quoted then .one g.char :: patternFrom fuel gs
    else if g.char = '*' then .anyText :: patternFrom fuel gs
    else if g.char = '?' then .anyOne :: patternFrom fuel gs
    else if g.char = '[' then
      match brackets? gs with
      | some (item, rest) => item :: patternFrom fuel rest
      | none => .one '[' :: patternFrom fuel gs
    else if g.char = '\\' then
      match gs with
      | h :: gs => .one h.char :: patternFrom fuel gs
      | [] => [.one '\\']
    else .one g.char :: patternFrom fuel gs

def patternOf (gs : Glyphs) : List PatternItem := patternFrom (gs.length + 1) gs

def PatternItem.fits (c : Char) : PatternItem → Bool
  | .one d => c = d
  | .anyOne => true
  | .anyText => true
  | .among negated members => (members.any (Member.holds c)) != negated

/-- The rests of a text, the longest first. -/
def rests : List Char → List (List Char)
  | [] => [[]]
  | c :: cs => (c :: cs) :: rests cs

/-- A text fits a pattern as a whole. -/
def matchesAll : List PatternItem → List Char → Bool
  | [], cs => cs.isEmpty
  | .anyText :: items, cs => (rests cs).any (matchesAll items)
  | item :: items, cs =>
    match cs with
    | c :: cs => item.fits c && matchesAll items cs
    | [] => false

/-- Some of a glyph run has a meaning in patterns. -/
def hasPattern (gs : Glyphs) : Bool :=
  gs.any fun g => !g.quoted && (g.char = '*' || g.char = '?' || g.char = '[')

/-- A text without the part in front that fits a pattern. -/
def trimFront (longest : Bool) (items : List PatternItem) (cs : List Char) : List Char :=
  let cuts := (List.range (cs.length + 1)).filter fun n => matchesAll items (cs.take n)
  match if longest then cuts.getLast? else cuts.head? with
  | some n => cs.drop n
  | none => cs

/-- A text without the part at its end that fits a pattern. -/
def trimBack (longest : Bool) (items : List PatternItem) (cs : List Char) : List Char :=
  let cuts := (List.range (cs.length + 1)).filter fun n => matchesAll items (cs.drop n)
  match if longest then cuts.head? else cuts.getLast? with
  | some n => cs.take n
  | none => cs

end CommandContract.Shell
