import CommandContract.Literal
import CommandContract.Proofs.Members
import CommandContract.Proofs.Text.Run

set_option autoImplicit false

/-!
# The grammar of literals

What a literal may look like and what it means, said without a reader. Every rule relates the
characters from some place on, a meaning, and the characters that are left behind what has it.
-/
namespace CommandContract.Literal

open Text (Run)

/-- Any number of blank characters. -/
abbrev Blanks : List Char → List Char → Prop := Text.Skips Text.isBlank

/-! ## Strings -/

/-- Letters behind a backslash that stand for another character. -/
def namedEscapes : List (Char × Char) :=
  [('n', '\n'), ('t', '\t'), ('r', '\r'), ('b', '\x08'), ('f', '\x0c'), ('0', '\x00')]

/-- The character with a code of four hexadecimal digits; half of a surrogate pair has none. -/
def unitChar (code : Nat) : Char :=
  if 0xD800 ≤ code ∧ code ≤ 0xDFFF then '\ufffd' else Char.ofNat code

/-- What may follow a backslash, and the character that it stands for. -/
inductive Escape : List Char → Char → List Char → Prop
  | named {letter c : Char} (h : (letter, c) ∈ namedEscapes) (rest : List Char) :
      Escape (letter :: rest) c rest
  | coded {cs rest : List Char} {code : Nat} (h : Json.hexFour? cs = some (code, rest)) :
      Escape ('u' :: cs) (unitChar code) rest
  | itself {c : Char} (coded : c ≠ 'u') (named : ∀ e ∈ namedEscapes, e.1 ≠ c) (rest : List Char) :
      Escape (c :: rest) c rest

/-- The characters of a string up to the first quote of its kind that is not escaped. -/
inductive Quoted (quote : Char) : List Char → List Char → List Char → Prop
  | close (rest : List Char) : Quoted quote (quote :: rest) [] rest
  | plain {c : Char} {cs body rest : List Char} (other : c ≠ quote)
      (bare : c ≠ '\\') (more : Quoted quote cs body rest) : Quoted quote (c :: cs) (c :: body) rest
  | escaped {c : Char} {cs after body rest : List Char} (h : Escape cs c after)
      (more : Quoted quote after body rest) : Quoted quote ('\\' :: cs) (c :: body) rest

/-- A string in either quote. -/
inductive QuotedText : List Char → String → List Char → Prop
  | mk {quote : Char} {cs body rest : List Char} (kind : quote = '"' ∨ quote = '\'')
      (h : Quoted quote cs body rest) : QuotedText (quote :: cs) (String.ofList body) rest

/-! ## Words and numbers -/

def keywords : List (String × Value) :=
  [("true", .bool true), ("false", .bool false), ("null", .null), ("undefined", .null)]

/-- The name of a member: a string, or a bare word that may begin with a digit. -/
inductive Key : List Char → String → List Char → Prop
  | quoted {cs rest : List Char} {name : String} (h : QuotedText cs name rest) : Key cs name rest
  | bare {c : Char} {cs word rest : List Char} (start : isWordStart c = true ∨ c.isDigit = true)
      (h : Run isWordChar (c :: cs) word rest) : Key (c :: cs) (String.ofList word) rest

/-- The text without one plus in front. -/
def dropPlus : List Char → List Char
  | '+' :: text => text
  | text => text

/-- A number typed by hand. -/
inductive Numeral : List Char → Number → List Char → Prop
  | mk {c : Char} {cs text rest : List Char} {n : Number} (start : isNumberStart c = true)
      (h : Run isNumberChar (c :: cs) text rest)
      (value : Number.ofNumeral? (dropPlus text) = some n) : Numeral (c :: cs) n rest

/-! ## Values -/

/-- The members that pairs make: a repeated name keeps its first place and takes its last value. -/
structure Collects (pairs : List (String × Value)) (ms : Members Value) : Prop where
  names : Members.keys ms = (pairs.map (·.1)).eraseDups
  values : ∀ key, Members.get? key ms = Members.last? key pairs

mutual

/-- A value, and what is left behind it. -/
inductive Spells : List Char → Value → List Char → Prop
  | keyword {cs rest : List Char} {word : String} {v : Value} (known : (word, v) ∈ keywords)
      (h : Run isWordChar cs word.toList rest) : Spells cs v rest
  | number {cs rest : List Char} {n : Number} (h : Numeral cs n rest) : Spells cs (.number n) rest
  | string {cs rest : List Char} {s : String} (h : QuotedText cs s rest) :
      Spells cs (.string s) rest
  | emptyArray {cs rest : List Char} (blanks : Blanks cs (']' :: rest)) :
      Spells ('[' :: cs) (.array []) rest
  | array {cs ds rest : List Char} {items : List Value} (blanks : Blanks cs ds)
      (h : SpellsItems ds items rest) : Spells ('[' :: cs) (.array items) rest
  | emptyObject {cs rest : List Char} (blanks : Blanks cs ('\x7d' :: rest)) :
      Spells ('\x7b' :: cs) (.object []) rest
  | object {cs ds rest : List Char} {pairs : List (String × Value)} {ms : Members Value}
      (blanks : Blanks cs ds) (h : SpellsMembers ds pairs rest) (collects : Collects pairs ms) :
      Spells ('\x7b' :: cs) (.object ms) rest

/-- At least one item, up to the closing bracket. -/
inductive SpellsItems : List Char → List Value → List Char → Prop
  | last {cs ds rest : List Char} {v : Value} (h : Spells cs v ds)
      (close : Blanks ds (']' :: rest)) : SpellsItems cs [v] rest
  | trailing {cs ds es rest : List Char} {v : Value} (h : Spells cs v ds)
      (comma : Blanks ds (',' :: es)) (close : Blanks es (']' :: rest)) : SpellsItems cs [v] rest
  | more {cs ds es fs rest : List Char} {v : Value} {vs : List Value} (h : Spells cs v ds)
      (comma : Blanks ds (',' :: es)) (blanks : Blanks es fs) (others : SpellsItems fs vs rest) :
      SpellsItems cs (v :: vs) rest

/-- A name, a colon and a value. -/
inductive SpellsMember : List Char → String × Value → List Char → Prop
  | mk {cs ds es fs rest : List Char} {name : String} {v : Value} (key : Key cs name ds)
      (colon : Blanks ds (':' :: es)) (blanks : Blanks es fs) (h : Spells fs v rest) :
      SpellsMember cs (name, v) rest

/-- At least one member, up to the closing brace. -/
inductive SpellsMembers : List Char → List (String × Value) → List Char → Prop
  | last {cs ds rest : List Char} {m : String × Value} (h : SpellsMember cs m ds)
      (close : Blanks ds ('\x7d' :: rest)) : SpellsMembers cs [m] rest
  | trailing {cs ds es rest : List Char} {m : String × Value} (h : SpellsMember cs m ds)
      (comma : Blanks ds (',' :: es)) (close : Blanks es ('\x7d' :: rest)) :
      SpellsMembers cs [m] rest
  | more {cs ds es fs rest : List Char} {m : String × Value} {pairs : List (String × Value)}
      (h : SpellsMember cs m ds) (comma : Blanks ds (',' :: es)) (blanks : Blanks es fs)
      (others : SpellsMembers fs pairs rest) : SpellsMembers cs (m :: pairs) rest

end

/-- A value with blanks around it. -/
inductive Stands : List Char → Value → List Char → Prop
  | mk {cs ds es rest : List Char} {v : Value} (before : Blanks cs ds) (h : Spells ds v es)
      (behind : Blanks es rest) : Stands cs v rest

end CommandContract.Literal
