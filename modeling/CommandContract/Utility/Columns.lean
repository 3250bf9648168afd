import CommandContract.Utility.Task

set_option autoImplicit false

/-!
# Columns

Parts of lines: fields and bytes that are picked, lines put side by side, folded, numbered or turned
round.
-/
namespace CommandContract.Utility

/-- Reads files as lines, and reports those that cannot be read. -/
def readLinesOf (c : Call) (paths : List String) : Task (List String) := do
  let mut all : List (List String) := []
  for path in paths do
    match ← read path with
    | .ok text => all := lines text :: all
    | .error cause => refuse c 1 (quotedIfNeeded path ++ ": " ++ cause.reason)
  return all.reverse.flatten

/-! ## Picking -/

/-- A closed range of numbers from one on; the upper end may be open. -/
structure Span where
  low : Nat
  high : Option Nat
  deriving DecidableEq, Repr

def Span.holds (n : Nat) (s : Span) : Bool :=
  s.low ≤ n && (match s.high with
    | some high => n ≤ high
    | none => true)

/-- One range of a list, or what is wrong with it. -/
def span? (what text : String) : Except String Span :=
  let number? (cs : List Char) : Option Nat :=
    if cs.isEmpty || !cs.all Char.isDigit then none
    else some (cs.foldl (fun n c => 10 * n + (c.toNat - 48)) 0)
  let zero : Except String Span := .error (what ++ " are numbered from 1")
  let invalid : Except String Span :=
    .error ((if what = "fields" then "invalid field value " else "invalid byte or character range ") ++
      quoted text)
  match Text.cutAt? '-' text.toList with
  | none =>
    match number? text.toList with
    | some 0 => zero
    | some n => .ok ⟨n, some n⟩
    | none => if text = "" then zero else invalid
  | some ([], []) => .error "invalid range with no endpoint: -"
  | some (low, high) =>
    let low := if low.isEmpty then some 1 else number? low
    let high := if high.isEmpty then some none else (number? high).map some
    match low, high with
    | some 0, _ => zero
    | some low, some none => .ok ⟨low, none⟩
    | some low, some (some high) =>
      if high < low then .error "invalid decreasing range" else .ok ⟨low, some high⟩
    | _, _ => invalid

def spans? (what text : String) : Except String (List Span) :=
  ((Text.splitOn ',' (text.toList.map fun c => if c = ' ' then ',' else c)).map String.ofList).mapM
    (span? what)

/-- The items whose numbers lie in ranges, with their numbers. -/
def pick {α : Type} (isPicked : Nat → Bool) (items : List α) : List α :=
  (items.zipIdx.filter fun (_, i) => isPicked (i + 1)).map (·.1)

def cutForms : List OptionForm := [
  valued 'b' "bytes", valued 'c' "characters", valued 'f' "fields", valued 'd' "delimiter",
  flag 's' "only-delimited", longFlag 'C' "complement", longValued 'O' "output-delimiter",
  flag 'n' "", flag 'z' "zero-terminated"]

/-- Cuts fields or bytes out of lines. -/
def cutColumns (c : Call) : Task Unit :=
  withOptions c cutForms 1 fun o => do
    let lists := o.options.filter fun x => ['b', 'c', 'f'].contains x.1
    let delimiter := (o.value? 'd').getD "\t"
    match lists with
    | [] => misuse c 1 "you must specify a list of bytes, characters, or fields"
    | _ :: _ :: _ => misuse c 1 "only one list may be specified"
    | [(kind, list)] =>
      if o.has 'd' && kind ≠ 'f' then
        misuse c 1 "an input delimiter may be specified only when operating on fields"
      else if o.has 's' && kind ≠ 'f' then
        misuse c 1
          "suppressing non-delimited lines makes sense\n\tonly when operating on fields"
      else if delimiter.length > 1 then misuse c 1 "the delimiter must be a single character"
      else
        match spans? (if kind = 'f' then "fields" else "byte/character positions") list with
        | .error message => misuse c 1 message
        | .ok spans =>
          let isPicked (n : Nat) : Bool := (spans.any (Span.holds n)) != o.has 'C'
          let sep := (delimiter.toList.head?).getD '\x00'
          let found ← readLinesOf c o.paths
          let shown := found.filterMap fun line =>
            if kind = 'f' then
              if !line.toList.contains sep then (if o.has 's' then none else some line)
              else
                let fields := (Text.splitOn sep line.toList).map String.ofList
                let between := (o.value? 'O').getD (String.ofList [sep])
                some (Text.joinWith between (pick isPicked fields))
            else
              match o.value? 'O' with
              | none => some (String.ofList (pick isPicked line.toList))
              | some between =>
                let items := line.toList.zipIdx.filter fun (_, i) => isPicked (i + 1)
                let starts (i : Nat) : Bool :=
                  spans.any (fun s => s.low = i + 1) &&
                    !spans.any (fun s => s.low ≤ i && Span.holds (i + 1) s)
                let pieces := items.zipIdx.map fun ((ch, i), k) =>
                  (if k > 0 && (starts i || !isPicked i) then between else "") ++ String.ofList [ch]
                some (String.join pieces)
          put (unlines shown)

/-! ## Side by side -/

/-- The characters of a list of separators; an escaped zero stands for none. -/
def separatorsOf : List Char → List String
  | [] => []
  | '\\' :: '0' :: cs => "" :: separatorsOf cs
  | '\\' :: 'n' :: cs => "\n" :: separatorsOf cs
  | '\\' :: 't' :: cs => "\t" :: separatorsOf cs
  | '\\' :: c :: cs => String.ofList [c] :: separatorsOf cs
  | c :: cs => String.ofList [c] :: separatorsOf cs

/-- Joins texts with separators that are used in turn. -/
def joinInTurn (separators : List String) (texts : List String) : String :=
  match texts with
  | [] => ""
  | first :: rest =>
    first ++ String.join (rest.zipIdx.map fun (t, i) =>
      (separators[i % max separators.length 1]?.getD "") ++ t)

/-- Deals the lines of one input to the places that read it in turn. -/
def dealLines (places index : Nat) (all : List String) : List String :=
  (all.zipIdx.filter fun (_, i) => i % places = index).map (·.1)

def putSideBySide (c : Call) : Task Unit :=
  withOptions c [valued 'd' "delimiters", flag 's' "serial", flag 'z' "zero-terminated"] 1 fun o => do
    let separators := separatorsOf ((o.value? 'd').getD "\t").toList
    let separators := if separators.isEmpty then [""] else separators
    let mut found : List (Bool × List String) := []
    for path in o.paths do
      match ← read path with
      | .ok text => found := (path = "-", lines text) :: found
      | .error cause =>
        refuse c 1 (quotedIfNeeded path ++ ": " ++ cause.reason)
        return
    let columns := found.reverse
    if o.has 's' then
      for (_, column) in columns do putLine (joinInTurn separators column)
    else
      let places := (columns.filter (·.1)).length
      let shared := ((columns.find? (·.1)).map (·.2)).getD []
      let dealt := (columns.foldl (fun (done, index) (isShared, column) =>
        if isShared then (dealLines places index shared :: done, index + 1)
        else (column :: done, index)) (([] : List (List String)), 0)).1.reverse
      let height := (dealt.map List.length).foldl max 0
      for i in List.range height do
        putLine (joinInTurn separators (dealt.map fun column => (column[i]?).getD ""))

/-! ## Folding and numbering -/

/-- Where a line is cut: at the last blank in front of the width, if blanks matter. -/
def foldLine (width : Nat) (atBlanks : Bool) : Nat → List Char → List (List Char)
  | 0, cs => [cs]
  | fuel + 1, cs =>
    if cs.length ≤ width then [cs]
    else
      let front := cs.take width
      let kept := if atBlanks then
          (front.reverse.dropWhile fun c => !(c = ' ' || c = '\t')).reverse
        else front
      let front := if kept.isEmpty then front else kept
      front :: foldLine width atBlanks fuel (cs.drop front.length)

def foldLines (c : Call) : Task Unit :=
  withOptions c [valued 'w' "width", flag 's' "spaces", flag 'b' "bytes"] 1 fun o => do
    let text := (o.value? 'w').getD "80"
    match text.toNat? with
    | none => refuse c 1 ("invalid number of columns: " ++ quoted text)
    | some 0 =>
      refuse c 1 ("invalid number of columns: " ++ quoted text ++ ": Numerical result out of range")
    | some width =>
      for path in o.paths do
        match ← read path with
        | .error cause => refuse c 1 (quotedIfNeeded path ++ ": " ++ cause.reason)
        | .ok text =>
          let (all, ended) := linesAndEnd text
          let folded := all.map fun line =>
            Text.joinWith "\n" ((foldLine width (o.has 's') line.length line.toList).map String.ofList)
          put (Text.joinWith "\n" folded ++ (if ended && !all.isEmpty then "\n" else ""))

def numberForms : List OptionForm := [
  valued 'b' "body-numbering", valued 'w' "number-width", valued 's' "number-separator",
  valued 'v' "starting-line-number", valued 'i' "line-increment", valued 'n' "number-format"]

/-- Numbers lines, those that are not empty unless all are asked for. -/
def numberLines (c : Call) : Task Unit :=
  withOptions c numberForms 1 fun o => do
    let number (letter : Char) (default : Nat) : Nat :=
      ((o.value? letter).bind String.toNat?).getD default
    let width := number 'w' 6
    let between := (o.value? 's').getD "\t"
    let style := (o.value? 'b').getD "t"
    let found ← readLinesOf c o.paths
    let step := fun (state : Nat × List String) (line : String) =>
      let (n, shown) := state
      if style = "a" || (style = "t" && line ≠ "") then
        let digits := toString n
        let lead := match (o.value? 'n').getD "rn" with
          | "ln" => Text.padRight width digits
          | "rz" => String.ofList (List.replicate (width - digits.length) '0') ++ digits
          | _ => padLeft width digits
        (n + number 'i' 1, (lead ++ between ++ line) :: shown)
      else (n, (String.ofList (List.replicate (width + between.length) ' ') ++ line) :: shown)
    put (unlines (found.foldl step (number 'v' 1, [])).2.reverse)

/-- Turns the characters of every line round. -/
def turnLines (c : Call) : Task Unit :=
  withOptions c [] 1 fun o => do
    for path in o.paths do
      match ← read path with
      | .error cause =>
        refuse c 1 ("cannot open " ++ path ++ ": " ++ cause.reason)
      | .ok text =>
        let (all, ended) := linesAndEnd text
        let turned := all.map fun line =>
          ofText (String.ofList (toText line).toList.reverse)
        put (Text.joinWith "\n" turned ++ (if ended && !all.isEmpty then "\n" else ""))

end CommandContract.Utility
