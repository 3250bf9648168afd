import CommandContract.FileTree
import CommandContract.Number.Power
import CommandContract.Shell.Bytes

set_option autoImplicit false

/-!
# Conditions

What `test` finds out about texts, numbers and files. Up to four words are understood by their
number; more of them are read with `!`, `-a`, `-o` and parentheses.
-/
namespace CommandContract.Shell.Condition

inductive UnaryOperator where
  | isEmpty
  | isFilled
  | isTerminal
  | exists_
  | isFile
  | isDirectory
  | isLink
  | hasSize
  | isReadable
  | isWritable
  | isExecutable
  | isDevice
  /-- a kind that no file here has -/
  | never
  | isOwned
  deriving DecidableEq, Repr

inductive BinaryOperator where
  | same
  | different
  | less
  | greater
  | numbers (holds : Ordering → Bool)
  /-- compares ages, of which nothing is known here -/
  | newer
  | sameFile

inductive Operator where
  | unary (o : UnaryOperator)
  | binary (o : BinaryOperator)
  | not
  | and
  | or
  | opens
  | closes

def operator? (word : String) : Option Operator :=
  match word with
  | "-z" => some (.unary .isEmpty)
  | "-n" => some (.unary .isFilled)
  | "-t" => some (.unary .isTerminal)
  | "-e" => some (.unary .exists_)
  | "-f" => some (.unary .isFile)
  | "-d" => some (.unary .isDirectory)
  | "-h" => some (.unary .isLink)
  | "-L" => some (.unary .isLink)
  | "-s" => some (.unary .hasSize)
  | "-r" => some (.unary .isReadable)
  | "-w" => some (.unary .isWritable)
  | "-x" => some (.unary .isExecutable)
  | "-c" => some (.unary .isDevice)
  | "-b" => some (.unary .never)
  | "-p" => some (.unary .never)
  | "-u" => some (.unary .never)
  | "-g" => some (.unary .never)
  | "-k" => some (.unary .never)
  | "-S" => some (.unary .never)
  | "-O" => some (.unary .isOwned)
  | "-G" => some (.unary .isOwned)
  | "=" => some (.binary .same)
  | "!=" => some (.binary .different)
  | "<" => some (.binary .less)
  | ">" => some (.binary .greater)
  | "-eq" => some (.binary (.numbers (· = .eq)))
  | "-ne" => some (.binary (.numbers (· ≠ .eq)))
  | "-lt" => some (.binary (.numbers (· = .lt)))
  | "-le" => some (.binary (.numbers (· ≠ .gt)))
  | "-gt" => some (.binary (.numbers (· = .gt)))
  | "-ge" => some (.binary (.numbers (· ≠ .lt)))
  | "-nt" => some (.binary .newer)
  | "-ot" => some (.binary .newer)
  | "-ef" => some (.binary .sameFile)
  | "!" => some .not
  | "-a" => some .and
  | "-o" => some .or
  | "(" => some .opens
  | ")" => some .closes
  | _ => none

def isBinary (word : String) : Bool :=
  match operator? word with
  | some (.binary _) => true
  | _ => false

/-- A number of 64 bits with spaces around it. -/
def number? (text : String) : Option Int :=
  let cs := text.toList.dropWhile isSpaceChar
  let cs := (cs.reverse.dropWhile isSpaceChar).reverse
  let (negative, digits) := match cs with
    | '-' :: ds => (true, ds)
    | '+' :: ds => (false, ds)
    | ds => (false, ds)
  if digits.isEmpty || !digits.all Char.isDigit then none
  else
    let n : Int := digits.foldl (fun n c => 10 * n + (c.toNat - 48)) (0 : Nat)
    let n := if negative then -n else n
    if n < -(pow2 63 : Int) ∨ (pow2 63 : Int) ≤ n then none else some n

def testFile (tree : FileTree) (path : String) : UnaryOperator → Bool
  | .exists_ => tree.pathExists (toText path)
  | .isFile => tree.isFile (toText path)
  | .isDirectory => tree.isDirectory (toText path)
  | .isLink =>
    let text := toText path
    match FileTree.parentPath? text, Path.fileName? text with
    | some parent, some name =>
      match tree.locate (if parent = "" then "." else parent) with
      | .ok location =>
        match tree.entry? (location ++ [name]) with
        | some (.link _) => true
        | _ => false
      | .error _ => false
    | _, _ => false
  | .hasSize =>
    match tree.target? (toText path) with
    | some (.file content _) => !content.isEmpty
    | some .directory => true
    | _ => false
  | .isReadable => tree.pathExists (toText path)
  | .isWritable => tree.pathExists (toText path)
  | .isExecutable =>
    match tree.target? (toText path) with
    | some (.file _ executable) => executable
    | some .directory => true
    | _ => false
  | .isDevice =>
    match tree.target? (toText path) with
    | some .sink => true
    | some .zeros => true
    | _ => false
  | .isOwned => tree.pathExists (toText path)
  | _ => false

def testUnary (tree : FileTree) (text : String) : UnaryOperator → Bool
  | .isEmpty => text = ""
  | .isFilled => text ≠ ""
  | .isTerminal => false
  | .never => false
  | o => testFile tree text o

/-- Reads words from left to right; what it cannot understand it says. -/
abbrev Reading := StateT (List String) (Except String)

def testBinary (tree : FileTree) (a b : String) : BinaryOperator → Except String Bool
  | .same => .ok (a = b)
  | .different => .ok (a ≠ b)
  | .less => .ok (a < b)
  | .greater => .ok (b < a)
  | .numbers holds =>
    match number? a, number? b with
    | some m, some n => .ok (holds (compare m n))
    | none, _ => .error ("Illegal number: " ++ a)
    | _, none => .error ("Illegal number: " ++ b)
  | .newer => .ok false
  | .sameFile =>
    match tree.locate (toText a), tree.locate (toText b) with
    | .ok m, .ok n => .ok (m = n)
    | _, _ => .ok false

/-- The operator that a word is where it stands. A test of one operand is none in front of an
operator between two, or at the end; a parenthesis is none at the end. -/
def operatorAt? (words : List String) : Option Operator :=
  match words with
  | [] => none
  | word :: rest =>
    match operator? word with
    | some (.unary o) =>
      match rest with
      | [] => none
      | [_] => some (.unary o)
      | next :: _ => if isBinary next then none else some (.unary o)
    | some .opens => if rest.isEmpty then none else some .opens
    | o => o

mutual

def readOr (tree : FileTree) : Nat → Reading Bool
  | 0 => throw "too many words"
  | fuel + 1 => do
    let a ← readAnd tree fuel
    match operatorAt? (← get) with
    | some .or =>
      modify List.tail
      let b ← readOr tree fuel
      return a || b
    | _ => return a

def readAnd (tree : FileTree) : Nat → Reading Bool
  | 0 => throw "too many words"
  | fuel + 1 => do
    let a ← readNot tree fuel
    match operatorAt? (← get) with
    | some .and =>
      modify List.tail
      let b ← readAnd tree fuel
      return a && b
    | _ => return a

def readNot (tree : FileTree) : Nat → Reading Bool
  | 0 => throw "too many words"
  | fuel + 1 => do
    match operatorAt? (← get) with
    | some .not =>
      modify List.tail
      return !(← readNot tree fuel)
    | _ => readPrimary tree fuel

def readPrimary (tree : FileTree) : Nat → Reading Bool
  | 0 => throw "too many words"
  | fuel + 1 => do
    let words ← get
    match words with
    | [] => return false
    | word :: rest =>
      match operatorAt? words with
      | some .opens =>
        set rest
        match operatorAt? rest with
        | some .closes =>
          set rest.tail
          return false
        | _ =>
          let b ← readOr tree fuel
          match (← get) with
          | ")" :: rest =>
            set rest
            return b
          | _ => throw "closing paren expected"
      | some (.unary o) =>
        match rest with
        | [] => throw (word ++ ": argument expected")
        | a :: rest =>
          set rest
          return testUnary tree a o
      | _ =>
        match rest with
        | op :: more =>
          match operatorAt? rest, operator? op with
          | some (.binary o), _ =>
            match more with
            | [] => throw (op ++ ": argument expected")
            | b :: left =>
              set left
              match testBinary tree word b o with
              | .ok r => return r
              | .error message => throw message
          | _, _ =>
            set rest
            return word ≠ ""
        | [] =>
          set rest
          return word ≠ ""

end

/-- Reads all words. If some are left, the last one that was read is no operator. -/
def readAll (tree : FileTree) (words : List String) : Except String Bool := do
  let (b, left) ← (readOr tree (8 * words.length + 16)).run words
  match left with
  | [] => .ok b
  | _ =>
    let last := words[words.length - left.length - 1]?.getD ""
    .error (last ++ ": unexpected operator")

/-- Tests words: three with an operator in the middle first of all, and a leading `!` of few words
turns the answer round. -/
def test (tree : FileTree) : List String → Except String Bool
  | [] => .ok false
  | [a, op, b] =>
    match operator? op with
    | some (.binary o) => testBinary tree a b o
    | _ =>
      if a = "(" && b = ")" then readAll tree [op]
      else if a = "!" then (test tree [op, b]).map (! ·)
      else readAll tree [a, op, b]
  | [a, b, c, d] =>
    if a = "(" && d = ")" then readAll tree [b, c]
    else if a = "!" then (test tree [b, c, d]).map (! ·)
    else readAll tree [a, b, c, d]
  | words => readAll tree words

end CommandContract.Shell.Condition
