import CommandContract.Utility.Columns

set_option autoImplicit false

/-!
# Comparing

Two texts beside each other: the first byte in which they differ, the lines that only one of two
sorted texts has, and the changes that lead from the lines of one to the lines of the other.
-/
namespace CommandContract.Utility

/-- Refuses arguments, each line under the name of the utility. -/
def misuseTwice (c : Call) (message : String) : Task Unit := do
  say c message
  refuse c 2 ("Try '" ++ c.name ++ " --help' for more information.")

/-- Goes on with the options of a call that compares two files. -/
def withPair (c : Call) (forms : List OptionForm) (second : Option String)
    (go : Choices → String → String → Task Unit) : Task Unit :=
  match readOptions forms true c.args with
  | .error message => misuseTwice c message
  | .ok o =>
    match o.operands, second with
    | [], _ => misuseTwice c ("missing operand after " ++ quoted c.name)
    | [a], some b => go o a b
    | [a], none => misuseTwice c ("missing operand after " ++ quoted a)
    | [a, b], _ => go o a b
    | _ :: _ :: extra :: _, _ => misuseTwice c ("extra operand " ++ quoted extra)

/-- Both texts, unless one of them cannot be read. -/
def readPair (c : Call) (a b : String) : Task (Option (String × String)) := do
  let first ← read a
  let second ← read b
  match first, second with
  | .ok x, .ok y => return some (x, y)
  | first, second =>
    for (path, result) in [(a, first), (b, second)] do
      if let .error cause := result then refuse c 2 (path ++ ": " ++ cause.reason)
    return none

/-! ## Bytes -/

/-- Where two texts differ: the number of the place from one on, and the characters there. -/
def differences : Nat → List Char → List Char → List (Nat × Char × Char)
  | n, a :: as, b :: bs =>
    let more := differences (n + 1) as bs
    if a = b then more else (n, a, b) :: more
  | _, _, _ => []

/-- What is said of the shorter text. -/
def shorterMessage (name : String) (text : List Char) (isList : Bool) : String :=
  let count := text.countP (· = '\n')
  let place :=
    if isList then ""
    else if text.getLast? = some '\n' then ", line " ++ toString count
    else ", in line " ++ toString (count + 1)
  if text.isEmpty then "EOF on " ++ name ++ " which is empty"
  else "EOF on " ++ name ++ " after byte " ++ toString text.length ++ place

/-- Finds the first byte in which two files differ, or shows all of them. -/
def compareBytes (c : Call) : Task Unit :=
  withPair c [flag 's' "silent", flag 's' "quiet", flag 'l' "verbose", valued 'n' "bytes",
      flag 'b' "print-bytes"] (some "-") fun o a b => do
    match ← readPair c a b with
    | none => if o.has 's' then modify fun d => { d with written := [] }
    | some (x, y) =>
      let kept (s : String) : List Char := match (o.value? 'n').bind String.toNat? with
        | some n => s.toList.take n
        | none => s.toList
      let (x, y) := (kept x, kept y)
      if x ≠ y then finish 1
      if x ≠ y && !o.has 's' then
        let found := differences 1 x y
        let octal (ch : Char) : String := String.ofList (Nat.toDigits 8 ch.toNat)
        let width := (toString (max x.length y.length)).length
        match found with
        | (n, _, _) :: _ =>
          if o.has 'l' then
            for (n, p, q) in found do
              putLine (padLeft width (toString n) ++ " " ++ padLeft 3 (octal p) ++ " " ++
                padLeft 3 (octal q))
          else
            let line := (x.take (n - 1)).countP (· = '\n') + 1
            putLine (a ++ " " ++ b ++ " differ: char " ++ toString n ++ ", line " ++ toString line)
        | [] => pure ()
        if found.isEmpty || o.has 'l' then
          if x.length < y.length then say c (shorterMessage a x (o.has 'l'))
          else if y.length < x.length then say c (shorterMessage b y (o.has 'l'))

/-! ## Sorted lines -/

/-- A list of sorted lines that is being read, with the line before. -/
structure SortedLines where
  before : Option String
  left : List String
  /-- a line was found that belongs in front of the one before it -/
  disordered : Bool

/-- Takes a line. The order of the lines counts once some line had no partner; at the end, that of
the last two is looked at again. -/
def SortedLines.advance (s : SortedLines) (counts : Bool) : SortedLines :=
  let wrong (a b : Option String) : Bool := match a, b with
    | some a, some b => counts && b < a
    | _, _ => false
  match s.left with
  | [] => s
  | [line] => ⟨some line, [], s.disordered || wrong s.before (some line)⟩
  | line :: next :: rest => ⟨some line, next :: rest, s.disordered || wrong (some line) (some next)⟩

/-- Lines of the first list, of the second, and of both, marked with 1, 2 and 3, and the lists as
they are when they have been read. -/
def pairLines :
    Nat → Bool → SortedLines → SortedLines → List (Nat × String) × SortedLines × SortedLines
  | 0, _, a, b => ([], a, b)
  | fuel + 1, counts, a, b =>
    let onlyFirst (line : String) :=
      let (shown, ends) := pairLines fuel true (a.advance true) b
      ((1, line) :: shown, ends)
    let onlySecond (line : String) :=
      let (shown, ends) := pairLines fuel true a (b.advance true)
      ((2, line) :: shown, ends)
    match a.left, b.left with
    | [], [] => ([], a, b)
    | x :: _, [] => onlyFirst x
    | [], y :: _ => onlySecond y
    | x :: _, y :: _ =>
      if x = y then
        let (shown, ends) := pairLines fuel counts (a.advance counts) (b.advance counts)
        ((3, x) :: shown, ends)
      else if x < y then onlyFirst x
      else onlySecond y

/-- Shows which lines two sorted files have alone and together. -/
def showCommonLines (c : Call) : Task Unit :=
  match readOptions [flag '1' "", flag '2' "", flag '3' "", longFlag 'N' "nocheck-order",
      flag 'z' "zero-terminated"] true c.args with
  | .error message => misuse c 1 message
  | .ok o =>
    match o.operands with
    | [] => misuse c 1 "missing operand"
    | [a] => misuse c 1 ("missing operand after " ++ quoted a)
    | _ :: _ :: extra :: _ => misuse c 1 ("extra operand " ++ quoted extra)
    | [a, b] => do
      let first ← read a
      let second ← read b
      match first, second with
      | .error cause, _ => refuse c 1 (quotedIfNeeded a ++ ": " ++ cause.reason)
      | _, .error cause => refuse c 1 (quotedIfNeeded b ++ ": " ++ cause.reason)
      | .ok x, .ok y =>
        let (xs, ys) := (lines x, lines y)
        let (shown, s, t) :=
          pairLines (xs.length + ys.length + 1) false ⟨none, xs, false⟩ ⟨none, ys, false⟩
        let tab (letter : Char) : String := if o.has letter then "" else "\t"
        for (column, line) in shown do
          match column with
          | 1 => if !o.has '1' then putLine line
          | 2 => if !o.has '2' then putLine (tab '1' ++ line)
          | _ => if !o.has '3' then putLine (tab '1' ++ tab '2' ++ line)
        if !o.has 'N' then
          if s.disordered then say c "file 1 is not in sorted order"
          if t.disordered then say c "file 2 is not in sorted order"
          if s.disordered || t.disordered then refuse c 1 "input is not in sorted order"

/-! ## Changes -/

/-- The lengths of the longest common parts of a list with every end of another, from those of the
list without its first item. -/
def commonLengths (x : String) : List String → List Nat → List Nat
  | y :: ys, n :: m :: ns =>
    let later := commonLengths x ys (m :: ns)
    (if x = y then m + 1 else max n (later.headD 0)) :: later
  | _, _ => [0]

/-- For every end of the first list, its common lengths with every end of the second. -/
def commonTable (ys : List String) : List String → List (List Nat)
  | [] => [List.replicate (ys.length + 1) 0]
  | x :: xs =>
    let below := commonTable ys xs
    commonLengths x ys (below.headD []) :: below

/-- One line on the way from one text to another. -/
inductive LineChange where
  | kept
  | removed (line : String)
  | added (line : String)
  deriving DecidableEq, Repr

/-- The way that keeps most lines, by the table of common lengths. -/
def changesBy : Nat → List (List Nat) → List String → List String → List LineChange
  | 0, _, _, _ => []
  | _ + 1, _, [], ys => ys.map .added
  | _ + 1, _, xs, [] => xs.map .removed
  | fuel + 1, table, x :: xs, y :: ys =>
    let below := table.drop 1
    if x = y then .kept :: changesBy fuel (below.map (·.drop 1)) xs ys
    else if ((table.headD []).getD 1 0) ≤ ((below.headD []).getD 0 0) then
      .removed x :: changesBy fuel below xs (y :: ys)
    else .added y :: changesBy fuel (table.map (·.drop 1)) (x :: xs) ys

/-- The lines at the beginning that are the same in both lists, and what follows them. -/
def sameBeginning : List String → List String → Nat × List String × List String
  | x :: xs, y :: ys =>
    if x = y then
      let (n, rest) := sameBeginning xs ys
      (n + 1, rest)
    else (0, x :: xs, y :: ys)
  | xs, ys => (0, xs, ys)

def changes (xs ys : List String) : List LineChange :=
  let (front, xs, ys) := sameBeginning xs ys
  let (back, xs, ys) := sameBeginning xs.reverse ys.reverse
  let (xs, ys) := (xs.reverse, ys.reverse)
  List.replicate front .kept ++ changesBy (xs.length + ys.length + 1) (commonTable ys xs) xs ys ++
    List.replicate back .kept

/-- A run of changes, with the numbers of lines in front of it in both texts. -/
structure Hunk where
  before : Nat
  after : Nat
  removed : List String
  added : List String
  deriving DecidableEq, Repr

/-- The runs of changes. -/
def hunks : Nat → Nat → List LineChange → List Hunk
  | _, _, [] => []
  | i, j, .kept :: rest => hunks (i + 1) (j + 1) rest
  | i, j, .removed line :: rest =>
    match hunks (i + 1) j rest with
    | h :: hs =>
      if h.before = i + 1 && h.after = j then { h with before := i, removed := line :: h.removed } :: hs
      else ⟨i, j, [line], []⟩ :: h :: hs
    | [] => [⟨i, j, [line], []⟩]
  | i, j, .added line :: rest =>
    match hunks i (j + 1) rest with
    | h :: hs =>
      if h.before = i && h.after = j + 1 then { h with after := j, added := line :: h.added } :: hs
      else ⟨i, j, [], [line]⟩ :: h :: hs
    | [] => [⟨i, j, [], [line]⟩]

/-- The numbers of the lines behind some, or the number of the last of those if there are none. -/
def lineRange (before : Nat) (items : List String) : String :=
  if items.length ≤ 1 then toString (before + items.length)
  else toString (before + 1) ++ "," ++ toString (before + items.length)

/-- The lines of a text with their ends. -/
def endedLines (text : String) : List String :=
  let (items, isEnded) := linesAndEnd text
  if isEnded then items.map (· ++ "\n")
  else items.dropLast.map (· ++ "\n") ++ items.getLast?.toList

/-- A line of a text, with a remark if its end is missing. -/
def markedLine (mark line : String) : String :=
  mark ++ line ++ (if line.endsWith "\n" then "" else "\n\\ No newline at end of file\n")

def Hunk.text (h : Hunk) : String :=
  let letter := if h.removed.isEmpty then "a" else if h.added.isEmpty then "d" else "c"
  lineRange h.before h.removed ++ letter ++ lineRange h.after h.added ++ "\n" ++
    String.join (h.removed.map (markedLine "< ")) ++
    (if letter = "c" then "---\n" else "") ++ String.join (h.added.map (markedLine "> "))

/-- Shows the changes that lead from one file to another. -/
def showChanges (c : Call) : Task Unit :=
  withPair c [flag 'q' "brief", flag 's' "report-identical-files", flag 'a' "text",
      longFlag 'N' "normal"] none fun o a b => do
    match ← readPair c a b with
    | none => pure ()
    | some (x, y) =>
      if x = y then
        if o.has 's' then putLine ("Files " ++ a ++ " and " ++ b ++ " are identical")
      else
        finish 1
        if o.has 'q' then putLine ("Files " ++ a ++ " and " ++ b ++ " differ")
        else if !o.has 'a' && (x.contains '\x00' || y.contains '\x00') then
          finish 2
          putLine ("Binary files " ++ a ++ " and " ++ b ++ " differ")
        else
          put (String.join ((hunks 0 0 (changes (endedLines x) (endedLines y))).map Hunk.text))

end CommandContract.Utility
