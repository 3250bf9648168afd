import CommandContract.Utility.RecordReader
import CommandContract.Utility.RecordValue
import CommandContract.Utility.Words

set_option autoImplicit false

/-!
# Running record scripts

A script runs its rules on every record of its input. Names lead to cells; an array is given to a
function by its cell, and so is a name that nothing was put in yet, which may still become an array.
-/
namespace CommandContract.Utility.RecordScript

inductive Cell where
  /-- nothing was put in yet; it becomes an array together with another cell, if there is one -/
  | untouched (origin : Option Nat)
  | scalar (v : Scalar)
  | array (entries : Members Scalar)

/-- What ends an action, a loop, a function or the script before its end. -/
inductive Leave where
  | nextRecord
  | exits (status : Option Nat)
  | leavesLoop
  | nextRound
  | answers (v : Scalar)
  /-- with a message -/
  | faults (message : String)

structure Machine where
  cells : Array Cell
  globals : Members Nat
  /-- the names of the function that runs -/
  locals : Members Nat
  record : List Char
  fields : Array Scalar
  /-- the rules whose range of records is open -/
  openRanges : List Nat
  /-- what is left of the input at hand -/
  pending : Option (List Char)
  /-- the number of the next argument -/
  argument : Nat
  anyInput : Bool
  /-- what is left of the files that lines are taken from -/
  reading : Members (List Char)
  /-- the files that were written to -/
  writing : List String
  status : Nat

def Machine.start : Machine := ⟨#[], [], [], [], #[], [], none, 1, false, [], [], 0⟩

abbrev Run := ExceptT Leave (StateT Machine Task)

def task {α : Type} (t : Task α) : Run α := liftM (liftM t : StateT Machine Task α)

def fault {α : Type} (message : String) : Run α := throw (.faults message)

/-- Runs something, and gives what it was left by. -/
def attempt (body : Run Unit) : Run (Option Leave) := do
  try
    body
    return none
  catch leave => return some leave

/-! ## Names -/

def newCell (c : Cell) : Run Nat := do
  let n := (← get).cells.size
  modify fun m => { m with cells := m.cells.push c }
  return n

def setCell (n : Nat) (c : Cell) : Run Unit :=
  modify fun m => { m with cells := m.cells.setIfInBounds n c }

def cell (n : Nat) : Run Cell := return ((← get).cells[n]?).getD (.untouched none)

/-- The cell of a name, which is made if there is none. -/
def cellOf (name : String) : Run Nat := do
  let m ← get
  match Members.get? name m.locals, Members.get? name m.globals with
  | some n, _ => return n
  | none, some n => return n
  | none, none =>
    let n ← newCell (.untouched none)
    modify fun m => { m with globals := m.globals ++ [(name, n)] }
    return n

/-- The cell of an array, which is made if nothing else was put there. -/
def arrayCell : Nat → Nat → Run Nat
  | 0, n => return n
  | depth + 1, n => do
    match ← cell n with
    | .untouched (some origin) => arrayCell depth origin
    | .untouched none =>
      setCell n (.array [])
      return n
    | _ => return n

def arrayOf (name : String) : Run Nat := do
  let n ← cellOf name
  arrayCell ((← get).cells.size + 1) n

def entries (n : Nat) : Run (Members Scalar) := do
  match ← cell n with
  | .array es => return es
  | _ => return []

def isLocal (name : String) : Run Bool := return Members.has name (← get).locals

def plainValue (name : String) : Run Scalar := do
  match ← cell (← cellOf name) with
  | .scalar v => return v
  | _ => return .unset

/-- The value of a variable; the number of fields is one. -/
def variableValue (name : String) : Run Scalar := do
  if name = "NF" && !(← isLocal name) then return ofNat (← get).fields.size
  else plainValue name

/-- The text of a value; numbers are written in the format of a variable. -/
def textIn (formatName : String) (v : Scalar) : Run (List Char) := do
  match v with
  | .number _ =>
    let format ← plainValue formatName
    return v.toText (format.toText [])
  | v => return v.toText []

def textOf (v : Scalar) : Run (List Char) := textIn "CONVFMT" v

def settingText (name : String) : Run (List Char) := do textOf (← plainValue name)

/-! ## Records and fields -/

def separatorOf (cs : List Char) : Run Separator :=
  match separator? cs with
  | .ok s => return s
  | .error message => fault ("regular expression compile failed (" ++ message ++ ")\n" ++
      String.ofList cs)

/-- The fields of a text. Where an empty line ends a record, a line end also separates fields. -/
def fieldsOf (cs : List Char) : Run (List (List Char)) := do
  let s ← separatorOf (← settingText "FS")
  if (← settingText "RS").isEmpty then return (Text.splitOn '\n' cs).flatMap s.split
  else return s.split cs

def setRecord (cs : List Char) : Run Unit := do
  let fields ← fieldsOf cs
  modify fun m => { m with record := cs, fields := (fields.map Scalar.input).toArray }

/-- Makes the record anew from its fields. -/
def joinFields : Run Unit := do
  let separator ← settingText "OFS"
  let texts ← (← get).fields.toList.mapM textOf
  modify fun m => { m with record := List.flatten (texts.intersperse separator) }

def setField (n : Nat) (v : Scalar) : Run Unit := do
  if n = 0 then setRecord (← textOf v)
  else
    modify fun m =>
      let missing := List.replicate (n - m.fields.size) (Scalar.input [])
      { m with fields := (m.fields ++ missing.toArray).setIfInBounds (n - 1) v }
    joinFields

/-- Cuts the fields off, or adds empty ones. -/
def setFieldCount (n : Nat) : Run Unit := do
  modify fun m =>
    let missing := List.replicate (n - m.fields.size) (Scalar.input [])
    { m with fields := (m.fields ++ missing.toArray).extract 0 n }
  joinFields

def fieldValue (n : Nat) : Run Scalar := do
  let m ← get
  if n = 0 then return .input m.record else return (m.fields[n - 1]?).getD .unset

def setVariable (name : String) (v : Scalar) : Run Unit := do
  if name = "NF" && !(← isLocal name) then setFieldCount v.toNumber.truncate.toNat
  else setCell (← cellOf name) (.scalar v)

def setEntry (n : Nat) (key : String) (v : Scalar) : Run Unit := do
  setCell n (.array (Members.put key v (← entries n)))

/-! ## Input -/

/-- An argument that sets a variable: the name and the value. -/
def givenVariable? (text : List Char) : Option (String × List Char) :=
  match text.span (· ≠ '=') with
  | (name, '=' :: value) =>
    match name with
    | c :: cs =>
      if Shell.isNameStart c && cs.all Shell.isNameChar then some (String.ofList name, value) else none
    | [] => none
  | _ => none

/-- A value as it is typed, with its escapes put in. -/
def typedValue (cs : List Char) : Scalar :=
  match quotedChars false (cs.length + 1) [] cs with
  | some (cs, _) => .input cs
  | none => .input cs

/-- Opens the next text of the input: that of an argument, or the standard input if no argument
names one. -/
def openInput (c : Call) : Nat → Run Bool
  | 0 => return false
  | fuel + 1 => do
    let openPath (path : String) : Run Bool := do
      match ← task (read path) with
      | .ok text =>
        setVariable "FNR" (ofNat 0)
        modify fun m => { m with pending := some text.toList, anyInput := true }
        return true
      | .error cause =>
        task (write .errors (c.name ++ ": cannot open \"" ++ path ++ "\" (" ++ cause.reason ++ ")\n"))
        throw (.exits (some 2))
    let n := (← get).argument
    if (← variableValue "ARGC").toNumber.truncate ≤ n then
      if (← get).anyInput then return false else openPath "-"
    else
      modify fun m => { m with argument := n + 1 }
      let given := Members.get? (toString n) (← entries (← arrayOf "ARGV"))
      let text ← textOf (given.getD .unset)
      if text.isEmpty then openInput c fuel
      else
        match givenVariable? text with
        | some (name, value) =>
          setVariable name (typedValue value)
          openInput c fuel
        | none =>
          setVariable "FILENAME" (.text text)
          openPath (String.ofList text)

/-- Takes the next record of the input. -/
def nextRecord (c : Call) : Nat → Run (Option (List Char))
  | 0 => return none
  | fuel + 1 => do
    let count (name : String) : Run Unit := do
      setVariable name (ofNat ((← plainValue name).toNumber.truncate.toNat + 1))
    match (← get).pending with
    | some text =>
      match takeRecord (← settingText "RS") text with
      | some (record, rest) =>
        modify fun m => { m with pending := some rest }
        count "NR"
        count "FNR"
        return some record
      | none =>
        modify fun m => { m with pending := none }
        nextRecord c fuel
    | none =>
      let arguments := (← variableValue "ARGC").toNumber.truncate.toNat
      if ← openInput c (arguments + 1) then nextRecord c fuel else return none

/-- Every argument may hold no record. -/
def inputSteps (c : Call) : Nat := 2 * c.args.length + 4

/-- Takes a line of a file, which stays open. -/
def lineOf (path : String) : Run (Except Unit (Option (List Char))) := do
  let opened ← match Members.get? path (← get).reading with
    | some rest => pure (some rest)
    | none =>
      match ← task (read path) with
      | .ok text => pure (some text.toList)
      | .error _ => pure none
  match opened with
  | none => return .error ()
  | some text =>
    match takeRecord (← settingText "RS") text with
    | some (line, rest) =>
      modify fun m => { m with reading := Members.put path rest m.reading }
      return .ok (some line)
    | none =>
      modify fun m => { m with reading := Members.put path [] m.reading }
      return .ok none

/-! ## Output -/

def writeOut (c : Call) (path : Option (String × Bool)) (text : List Char) : Run Unit := do
  let text := String.ofList text
  match path with
  | none => task (put text)
  | some (path, atEnd) =>
    let path := if path = "-" then "/dev/stdout" else path
    let known := (← get).writing.contains path
    match ← task (store path text (atEnd || known)) with
    | .ok _ => modify fun m => { m with writing := path :: m.writing.filter (· ≠ path) }
    | .error cause =>
      task (write .errors (c.name ++ ": cannot open \"" ++ path ++ "\" for output (" ++
        cause.reason ++ ")\n"))
      throw (.exits (some 2))

/-! ## Evaluation -/

/-- What is evaluated: an expression, or a statement, which has no value. -/
inductive Job where
  | value (e : Expression)
  | act (s : Statement)

/-- Evaluates what is inside of something else. -/
abbrev Evaluator := Job → Run Scalar

def truth (v : Scalar) : Scalar := ofBool v.isTrue

/-- The text that an index is. -/
def keyOf (go : Evaluator) (index : List Expression) : Run String := do
  let texts ← index.mapM fun e => do textOf (← go (.value e))
  return String.ofList (List.flatten (texts.intersperse (← settingText "SUBSEP")))

def fieldNumber (v : Scalar) : Run Nat :=
  let n := v.toNumber.truncate
  if n < 0 then fault ("negative field index $" ++ toString n) else return n.toNat

/-- What stands where a value may be put. -/
inductive Place where
  | variable_ (name : String)
  | element (cell : Nat) (key : String)
  | field (n : Nat)

def placeOf (go : Evaluator) (e : Expression) : Run Place := do
  match e with
  | .named name => return .variable_ name
  | .element array index =>
    let key ← keyOf go index
    return .element (← arrayOf array) key
  | .field e => return .field (← fieldNumber (← go (.value e)))
  | _ => fault "a value cannot be put there"

def Place.value : Place → Run Scalar
  | variable_ name => variableValue name
  | element n key => do
    match Members.get? key (← entries n) with
    | some v => return v
    | none =>
      setEntry n key .unset
      return .unset
  | field n => fieldValue n

def Place.set (p : Place) (v : Scalar) : Run Unit :=
  match p with
  | variable_ name => setVariable name v
  | element n key => setEntry n key v
  | field n => setField n v

/-- The expression that a pattern is: one between slashes, or that of a text. -/
def patternOf (go : Evaluator) (e : Expression) : Run Regex := do
  match e with
  | .regex r => return r
  | e =>
    let cs ← textOf (← go (.value e))
    match Regex.ofText .extended (String.ofList cs) with
    | .ok (r, _) => return r
    | .error message => fault ("regular expression compile failed (" ++ message ++ ")\n" ++
        String.ofList cs)

def formatArguments (go : Evaluator) (who : String) (args : List Expression) : Run (List Char) := do
  let values ← args.mapM fun e => go (.value e)
  match values with
  | [] => return []
  | first :: rest =>
    let format ← textOf first
    let numbers ← settingText "CONVFMT"
    match formatted (Scalar.toText numbers) (format.length + 1) format rest with
    | .ok cs => return cs
    | .error .missing =>
      fault ("not enough arguments passed to " ++ who ++ "(\"" ++ String.ofList format ++ "\")")
    | .error .letter => fault ("improper conversion in " ++ who ++ "(\"" ++ String.ofList format ++ "\")")

/-- Replaces matches in a place, and gives their number. -/
def replaceIn (go : Evaluator) (all : Bool) (pattern replacement target : Expression) :
    Run Scalar := do
  let r ← patternOf go pattern
  let new ← textOf (← go (.value replacement))
  let place ← if target.isPlace then some <$> placeOf go target else pure none
  let cs ← match place with
    | some p => do textOf (← p.value)
    | none => do textOf (← go (.value target))
  let (changed, count) := replaceMatches r new cs all (cs.length + 2) 0 none
  if count > 0 then
    if let some p := place then p.set (.text changed)
  return ofNat count

/-- Splits a text into the entries of an array, and gives their number. -/
def splitInto (go : Evaluator) (text : Expression) (array : String) (by_ : Option Expression) :
    Run Scalar := do
  let cs ← textOf (← go (.value text))
  let separator ← match by_ with
    | none => separatorOf (← settingText "FS")
    | some (.regex r) => pure (.regex r)
    | some e => separatorOf (← textOf (← go (.value e)))
  let parts := separator.split cs
  let n ← arrayOf array
  setCell n (.array (parts.zipIdx.map fun (p, i) => (toString (i + 1), .input p)))
  return ofNat parts.length

def evaluateBuiltin (go : Evaluator) (f : Builtin) (args : List Expression) : Run Scalar := do
  let text (e : Expression) : Run (List Char) := do textOf (← go (.value e))
  let number (e : Expression) : Run Binary64 := do return (← go (.value e)).toNumber
  match f, args with
  | .length, [] => return ofNat (← get).record.length
  | .length, [.named name] =>
    match ← cell (← cellOf name) with
    | .array es => return ofNat es.length
    | _ => return ofNat (← text (.named name)).length
  | .length, e :: _ => return ofNat (← text e).length
  | .part, [e, start] => return .text (partOf (← text e) (← number start) none)
  | .part, [e, start, count] => return .text (partOf (← text e) (← number start) (← number count))
  | .index, [e, part] =>
    let cs ← text e
    let part ← text part
    let found := (List.range (cs.length + 1)).find? fun i =>
      (Text.dropLeading? part (cs.drop i)).isSome
    return ofNat (match found with
      | some i => i + 1
      | none => 0)
  | .split, [e, .named array] => splitInto go e array none
  | .split, [e, .named array, by_] => splitInto go e array (some by_)
  | .replaceOne, [pattern, new] =>
    replaceIn go false pattern new (.field (.number zero))
  | .replaceOne, [pattern, new, target] => replaceIn go false pattern new target
  | .replaceAll, [pattern, new] => replaceIn go true pattern new (.field (.number zero))
  | .replaceAll, [pattern, new, target] => replaceIn go true pattern new target
  | .find, [e, pattern] =>
    let cs ← text e
    let r ← patternOf go pattern
    let (start, length) := match r.find? false cs 0 with
      | some m => (m.start + 1, Scalar.number (Binary64.ofInt ((m.stop : Int) - m.start)))
      | none => (0, .number (Binary64.ofInt (-1)))
    setVariable "RSTART" (ofNat start)
    setVariable "RLENGTH" length
    return ofNat start
  | .format, args => return .text (← formatArguments go "sprintf" args)
  | .lower, [e] => return .text ((← text e).map Char.toLower)
  | .upper, [e] => return .text ((← text e).map Char.toUpper)
  | .whole, [e] => return .number (Binary64.ofInt (← number e).truncate)
  | .squareRoot, [e] =>
    let x ← number e
    return if x.negative && !x.isZero then .text "-nan".toList else .number (squareRoot x)
  | .close, [e] =>
    let path := String.ofList (← text e)
    let m ← get
    let known := m.writing.contains path || Members.has path m.reading
    set { m with writing := m.writing.filter (· ≠ path), reading := Members.erase path m.reading }
    return if known then ofNat 0 else .number (Binary64.ofInt (-1))
  | .flush, _ => return ofNat 0
  | _, _ => fault "wrong number of arguments in a call"

/-- The cells for the parameters of a function. -/
def argumentCells (go : Evaluator) : List String → List Expression → Run (Members Nat)
  | [], _ => return []
  | name :: names, [] => do
    let n ← newCell (.untouched none)
    return (name, n) :: (← argumentCells go names [])
  | name :: names, .named given :: args => do
    let outer ← cellOf given
    let n ← match ← cell outer with
      | .array _ => pure outer
      | .untouched _ => newCell (.untouched (some outer))
      | .scalar _ => do newCell (.scalar (← variableValue given))
    return (name, n) :: (← argumentCells go names args)
  | name :: names, e :: args => do
    let v ← go (.value e)
    let n ← newCell (.scalar v)
    return (name, n) :: (← argumentCells go names args)

def callFunction (script : RecordScript) (go : Evaluator) (name : String) (args : List Expression) :
    Run Scalar := do
  match Members.get? name script.functions with
  | none => fault ("function " ++ name ++ " never defined")
  | some f =>
    let cells ← argumentCells go f.parameters args
    let outer := (← get).locals
    modify fun m => { m with locals := cells }
    let left ← attempt do
      let _ ← go (.act f.body)
    modify fun m => { m with locals := outer }
    match left with
    | none => return .unset
    | some (.answers v) => return v
    | some leave => throw leave

/-- Takes a record or a line, and tells with 1, 0 or -1 whether there was one. -/
def evaluateNext (c : Call) (go : Evaluator) (place path : Option Expression) : Run Scalar := do
  let taken ← match path with
    | none => Except.ok <$> nextRecord c (inputSteps c)
    | some e => do lineOf (String.ofList (← textOf (← go (.value e))))
  match taken with
  | .error _ => return .number (Binary64.ofInt (-1))
  | .ok none => return ofNat 0
  | .ok (some cs) =>
    match place with
    | none => setRecord cs
    | some e => (← placeOf go e).set (.input cs)
    return ofNat 1

/-- Evaluates an expression. -/
def evaluateWith (c : Call) (script : RecordScript) (go : Evaluator) (e : Expression) : Run Scalar := do
  let value (e : Expression) : Run Scalar := go (.value e)
  match e with
  | .number x => return .number x
  | .text cs => return .text cs
  | .regex r => return ofBool (r.find? false (← get).record 0).isSome
  | .named name => variableValue name
  | .element array index => (← placeOf go (.element array index)).value
  | .field n => do fieldValue (← fieldNumber (← value n))
  | .list items =>
    match items with
    | [e] => value e
    | items => return .text (← keyOf go items).toList
  | .assign place op e =>
    match op with
    | none =>
      let v ← value e
      (← placeOf go place).set v
      return v
    | some op =>
      let p ← placeOf go place
      let x := (← value e).toNumber
      let v := op.apply (← p.value).toNumber x
      p.set v
      return v
  | .step place op isAfter =>
    let p ← placeOf go place
    let old := (← p.value).toNumber
    let new := op.apply old (Binary64.ofInt 1)
    p.set new
    return if isAfter then .number old else new
  | .negative e => return .number ((← value e).toNumber).neg
  | .positive e => return .number (← value e).toNumber
  | .not e => return ofBool !(← value e).isTrue
  | .operation op a b =>
    let x ← value a
    return op.apply x.toNumber (← value b).toNumber
  | .relation r a b =>
    let x ← value a
    let y ← value b
    return ofBool (r.holds (← settingText "CONVFMT") x y)
  | .joined a b =>
    let x ← textOf (← value a)
    return .text (x ++ (← textOf (← value b)))
  | .both a b => if (← value a).isTrue then return truth (← value b) else return ofBool false
  | .either a b => if (← value a).isTrue then return ofBool true else return truth (← value b)
  | .choice test a b => if (← value test).isTrue then value a else value b
  | .fits expected a pattern =>
    let cs ← textOf (← value a)
    let r ← patternOf go pattern
    return ofBool ((r.find? false cs 0).isSome = expected)
  | .has array index =>
    let key ← keyOf go index
    return ofBool (Members.has key (← entries (← arrayOf array)))
  | .builtin f args => evaluateBuiltin go f args
  | .call f args => callFunction script go f args
  | .next place path => evaluateNext c go place path

/-- Repeats a step as long as it asks for it, up to a number of times. -/
def repeatStep (step : Run Bool) : Nat → Run Unit
  | 0 => pure ()
  | n + 1 => do
    if ← step then repeatStep step n

/-- Loops end after this many rounds. -/
def maxRounds : Nat := 100000000

/-- Runs the body of a loop; the answer is whether the loop goes on. -/
def roundOf (go : Evaluator) (body : Statement) : Run Bool := do
  match ← attempt (do let _ ← go (.act body)) with
  | none => return true
  | some .nextRound => return true
  | some .leavesLoop => return false
  | some leave => throw leave

/-- What is printed: values with separators between them, and the record if there are none. -/
def printedText (go : Evaluator) (args : List Expression) : Run (List Char) := do
  let separator ← settingText "OFS"
  let ending ← settingText "ORS"
  let texts ← if args.isEmpty then do pure [(← get).record] else
    args.mapM fun e => do textIn "OFMT" (← go (.value e))
  return List.flatten (texts.intersperse separator) ++ ending

def outletPath (go : Evaluator) (outlet : Option Outlet) : Run (Option (String × Bool)) := do
  match outlet with
  | none => return none
  | some o => return some (String.ofList (← textOf (← go (.value o.path))), o.atEnd)

def runWith (c : Call) (go : Evaluator) (s : Statement) : Run Unit := do
  let isTrue (e : Expression) : Run Bool := return (← go (.value e)).isTrue
  match s with
  | .expression e =>
    let _ ← go (.value e)
  | .print args outlet =>
    let text ← printedText go args
    writeOut c (← outletPath go outlet) text
  | .printFormatted args outlet =>
    let text ← formatArguments go "printf" args
    writeOut c (← outletPath go outlet) text
  | .block items =>
    for s in items do
      let _ ← go (.act s)
  | .choose test yes no =>
    if ← isTrue test then
      let _ ← go (.act yes)
    else if let some no := no then
      let _ ← go (.act no)
  | .repeatWhile test body =>
    repeatStep (do if ← isTrue test then roundOf go body else return false) maxRounds
  | .repeatUntil body test =>
    repeatStep (do if ← roundOf go body then isTrue test else return false) maxRounds
  | .repeatCounting test next body =>
    let goes : Run Bool := match test with
      | some test => isTrue test
      | none => return true
    repeatStep (do
      if !(← goes) then return false
      else if ← roundOf go body then
        let _ ← go (.act next)
        return true
      else return false) maxRounds
  | .forKeys name array body =>
    let keys := Members.keys (← entries (← arrayOf array))
    let left ← attempt do
      for key in keys do
        setVariable name (.input key.toList)
        if !(← roundOf go body) then throw .leavesLoop
    match left with
    | some .leavesLoop => pure ()
    | some leave => throw leave
    | none => pure ()
  | .delete array index =>
    let n ← arrayOf array
    match index with
    | none => setCell n (.array [])
    | some index =>
      let key ← keyOf go index
      setCell n (.array (Members.erase key (← entries n)))
  | .nextRecord => throw .nextRecord
  | .exit status =>
    match status with
    | none => throw (.exits none)
    | some e =>
      let n := (← go (.value e)).toNumber.truncate
      throw (.exits (some (n % 256).toNat))
  | .answer value =>
    match value with
    | none => throw (.answers .unset)
    | some e => do throw (.answers (← go (.value e)))
  | .leaveLoop => throw .leavesLoop
  | .nextRound => throw .nextRound

/-- Evaluates what is nested down to a depth. -/
def evaluate (c : Call) (script : RecordScript) : Nat → Evaluator
  | 0 => fun _ => fault "function call nesting too deep"
  | depth + 1 => fun job =>
    match job with
    | .value e => evaluateWith c script (evaluate c script depth) e
    | .act s => do
      runWith c (evaluate c script depth) s
      return .unset

/-- Expressions, statements and calls may be nested this deep. -/
def maxDepth : Nat := 20000

/-! ## Rules -/

def runAction (go : Evaluator) (action : Option Statement) : Run Unit := do
  let _ ← go (.act (action.getD (.print [] none)))

/-- Whether a rule of a number takes the record at hand. -/
def selects (go : Evaluator) (number : Nat) (p : Pattern) : Run Bool := do
  let isTrue (e : Expression) : Run Bool := return (← go (.value e)).isTrue
  match p with
  | .always => return true
  | .when test => isTrue test
  | .between start stop =>
    let isOpen ← if (← get).openRanges.contains number then pure true else isTrue start
    if !isOpen then return false
    else
      let ends ← isTrue stop
      modify fun m =>
        let others := m.openRanges.filter (· ≠ number)
        { m with openRanges := if ends then others else number :: others }
      return true
  | _ => return false

/-- Runs the rules on the record at hand. -/
def runRules (go : Evaluator) (rules : List Rule) : Run Unit := do
  let left ← attempt do
    for (rule, number) in rules.zipIdx do
      if ← selects go number rule.pattern then runAction go rule.action
  match left with
  | some .nextRecord => pure ()
  | some leave => throw leave
  | none => pure ()

/-- Ends quietly where the script asked for it, and keeps its status. -/
def untilExit (body : Run Unit) : Run Bool := do
  match ← attempt body with
  | some (.exits status) =>
    modify fun m => { m with status := status.getD m.status }
    return true
  | some (.faults message) => fault message
  | _ => return false

def runScript (c : Call) (script : RecordScript) : Run Unit := do
  let go := evaluate c script maxDepth
  let first := script.rules.filter fun r => r.pattern matches .first
  let last := script.rules.filter fun r => r.pattern matches .last
  let main := script.rules.filter fun r => !(r.pattern matches .first || r.pattern matches .last)
  let ended ← untilExit do
    for rule in first do runAction go rule.action
  if !(main.isEmpty && last.isEmpty) then
    if !ended then
      let _ ← untilExit do
        repeatStep (do
          match ← nextRecord c (inputSteps c) with
          | none => return false
          | some cs =>
            setRecord cs
            runRules go main
            return true) maxRounds
    let _ ← untilExit do
      for rule in last do runAction go rule.action

/-! ## Calls -/

/-- The variables that a script begins with. -/
def startVariables (c : Call) (operands : List String) : Run Unit := do
  let texts : List (String × String) := [
    ("FS", " "), ("OFS", " "), ("ORS", "\n"), ("RS", "\n"), ("SUBSEP", "\x1c"), ("CONVFMT", "%.6g"),
    ("OFMT", "%.6g"), ("FILENAME", "")]
  for (name, text) in texts do setVariable name (.text text.toList)
  for name in ["NR", "FNR", "RSTART"] do setVariable name (ofNat 0)
  setVariable "RLENGTH" (.number (Binary64.ofInt (-1)))
  let words := (c.name :: operands).zipIdx.map fun (w, i) => (toString i, Scalar.input w.toList)
  setVariable "ARGC" (ofNat words.length)
  setCell (← arrayOf "ARGV") (.array words)
  setCell (← arrayOf "ENVIRON") (.array (c.environment.map fun (name, value) =>
    (name, Scalar.input value.toList)))

/-- The text of the script: from files, or the first operand. -/
def scriptText (c : Call) (o : Choices) : Task (Option (String × List String)) := do
  let paths := (o.options.filter (·.1 = 'f')).map (·.2)
  if paths.isEmpty then
    return o.operands.head?.map fun text => (text, o.operands.drop 1)
  else
    let mut texts : List String := []
    for path in paths do
      match ← read path with
      | .ok text => texts := text :: texts
      | .error cause =>
        refuse c 2 ("cannot open \"" ++ path ++ "\" (" ++ cause.reason ++ ")")
        return none
    return some (Text.joinWith "\n" texts.reverse, o.operands)

end RecordScript

open RecordScript in
/-- Runs a script on every record of its input. -/
def processRecords (c : Call) : Task Unit := do
  let c := { c with name := lastPart c.name }
  match readOptions [valued 'F' "", valued 'v' "", valued 'f' ""] false c.args with
  | .error _ =>
    let unknown := c.args.find? fun a => ["-F", "-v", "-f"].all fun o => !a.startsWith o
    refuse c 2 ("not an option: " ++ unknown.getD "-")
  | .ok o =>
    match ← scriptText c o with
    | none => pure ()
    | some (text, operands) =>
      match RecordScript.ofText text with
      | .error message => refuse c 2 message
      | .ok script =>
        let body : Run Unit := do
          startVariables c operands
          for (letter, value) in o.options do
            if letter = 'F' then setVariable "FS" (typedValue value.toList)
            else if letter = 'v' then
              match givenVariable? value.toList with
              | some (name, value) => setVariable name (typedValue value)
              | none => fault ("improper assignment: -v " ++ value)
          runScript c script
        let (left, m) ← (body.run).run Machine.start
        match left with
        | .error (.faults message) =>
          let place : Run (List (List Char)) := ["FILENAME", "FNR", "NR"].mapM settingText
          let (texts, _) ← (place.run).run m
          match texts with
          | .ok [file, inFile, inAll] =>
            refuse c 2 ("run time error: " ++ message ++ "\n\tFILENAME=\"" ++ String.ofList file ++
              "\" FNR=" ++ String.ofList inFile ++ " NR=" ++ String.ofList inAll)
          | _ => refuse c 2 ("run time error: " ++ message)
        | _ => finish m.status

end CommandContract.Utility
