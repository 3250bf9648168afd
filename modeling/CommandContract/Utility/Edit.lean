import CommandContract.Utility.EditScript
import CommandContract.Utility.Task

set_option autoImplicit false

/-!
# Stream editing

A script runs on every line of the input. It works on the line at hand and on a text that is held,
and what it does not delete is written.
-/
namespace CommandContract.Utility

open EditScript (Action Address Instruction Pattern RangeEnd ReplacementPart Selection Substitution
  CaseChange)

/-- A line of the input, and whether a line end stands behind it. -/
structure InputLine where
  text : String
  ended : Bool
  deriving DecidableEq, Repr

/-- The state of an editor between two commands. -/
structure Editor where
  left : List InputLine
  number : Nat
  line : List Char
  ended : Bool
  held : List Char
  /-- texts that are written at the end of the cycle; nothing names a file -/
  queued : List (Bool × String)
  /-- a substitution took place since the line was read -/
  changed : Bool
  /-- the lines at which ranges end, by the numbers of their commands; zero stands for a pattern -/
  ranges : List (Nat × Nat)
  lastRegex : Option Regex
  /-- a line end is owed before anything else is written -/
  owesEnd : Bool
  /-- the cycle begins without reading -/
  keepsLine : Bool
  pieces : List String
  files : List (String × String)

/-- How a cycle ends. -/
inductive CycleEnd where
  | proceed
  /-- without writing the line -/
  | deleted
  | quit (status : Nat) (silently : Bool)
  /-- a fault of the script -/
  | fault (message : String)

structure EditSetting where
  silent : Bool
  files : FileTree
  name : String

namespace Editor

/-- Writes to the output, with the line end that is owed before. -/
def emit (e : Editor) (text : String) : Editor :=
  { e with pieces := text :: (if e.owesEnd then "\n" :: e.pieces else e.pieces), owesEnd := false }

/-- Writes a line; the last one of the input has an end only if it had one there. -/
def emitLine (e : Editor) (line : List Char) : Editor :=
  let e := e.emit (String.ofList line)
  if e.ended then e.emit "\n" else { e with owesEnd := true }

/-- Writes a line to a file, which may be one of the streams. -/
def emitTo (e : Editor) (path : String) (line : List Char) : Editor :=
  if path = "/dev/stdout" then e.emitLine line
  else
    let text := String.ofList line ++ "\n"
    { e with files := e.files ++ [(path, text)] }

def isLast (e : Editor) : Bool := e.left.isEmpty

def find? (e : Editor) (p : Pattern) (index : Nat) : Option Regex.Match :=
  match p.regex <|> e.lastRegex with
  | some r => r.find? p.foldsCase e.line index
  | none => none

def remember (e : Editor) (p : Pattern) : Editor :=
  { e with lastRegex := p.regex <|> e.lastRegex }

/-! ## Selecting -/

def fits (e : Editor) (a : Address) : Editor × Bool :=
  match a with
  | .line n => (e, e.number = n)
  | .last => (e, e.isLast)
  | .every first step => (e, first ≤ e.number && (e.number - first) % step = 0)
  | .pattern p => (e.remember p, (e.find? p 0).isSome)

def endRange (e : Editor) (index : Nat) : Editor :=
  { e with ranges := e.ranges.filter (·.1 ≠ index) }

def beginRange (e : Editor) (index stop : Nat) : Editor :=
  { e with ranges := (index, stop) :: e.ranges }

/-- Whether the line at hand belongs to a range that is open or begins here. -/
def inRange (e : Editor) (index : Nat) (first : Address) (stop : RangeEnd) : Editor × Bool :=
  match e.ranges.find? (·.1 = index) with
  | some (_, limit) =>
    match stop with
    | .address (.line n) =>
      if e.number ≥ n then (e.endRange index, e.number = n) else (e, true)
    | .address a =>
      let (e, found) := e.fits a
      (if found then e.endRange index else e, true)
    | _ => (if e.number ≥ limit then e.endRange index else e, true)
  | none =>
    let (e, found) := e.fits first
    if !found then (e, false)
    else
      match stop with
      | .address (.line n) => (if e.number < n then e.beginRange index n else e, true)
      | .address _ => (e.beginRange index 0, true)
      | .further n => (if n = 0 then e else e.beginRange index (e.number + n), true)
      | .multiple n =>
        if n = 0 || e.number % n = 0 then (e, true)
        else (e.beginRange index ((e.number + n - 1) / n * n), true)

def selects (e : Editor) (index : Nat) (s : Selection) : Editor × Bool :=
  let (e, found) :=
    match s.first, s.stop with
    | none, _ => (e, true)
    | some a, none => e.fits a
    | some a, some stop => e.inRange index a stop
  (e, found != s.negated)

/-! ## Substituting -/

/-- Applies changes of case to a text; one for the next character is used up. -/
def applyCase (whole next : CaseChange) (cs : List Char) : List Char :=
  let rest := match whole with
    | .upper => cs.map Char.toUpper
    | .lower => cs.map Char.toLower
    | _ => cs
  match next, rest with
  | .upperNext, c :: r => c.toUpper :: r
  | .lowerNext, c :: r => c.toLower :: r
  | _, r => r

/-- The text of a replacement. -/
def replacement (line : List Char) (m : Regex.Match) (parts : List ReplacementPart) : List Char :=
  let step := fun (state : CaseChange × CaseChange × List (List Char)) (part : ReplacementPart) =>
    let (whole, next, done) := state
    let add (cs : List Char) : CaseChange × CaseChange × List (List Char) :=
      (whole, if cs.isEmpty then next else .none, applyCase whole next cs :: done)
    match part with
    | .text c => add [c]
    | .group n => add (m.group line n)
    | .case .upper => (.upper, .none, done)
    | .case .lower => (.lower, .none, done)
    | .case .none => (.none, .none, done)
    | .case c => (whole, c, done)
  ((parts.foldl step (.none, .none, [])).2.2.reverse).flatten

/-- Replaces the matches from a number on: what stands before the place is written already. An empty
match right behind another match does not count. -/
def replaceFrom (e : Editor) (s : Substitution) : Nat → Nat → Nat → Option Nat → List Char × Bool
  | 0, index, _, _ => (e.line.drop index, false)
  | fuel + 1, index, count, lastStop =>
    match e.find? s.pattern index with
    | none => (e.line.drop index, false)
    | some m =>
      let front := (e.line.drop index).take (m.start - index)
      let stepOver (at_ : Nat) (count : Nat) (lastStop : Option Nat) : List Char × Bool :=
        match e.line.drop at_ with
        | c :: _ =>
          let (more, done) := replaceFrom e s fuel (at_ + 1) count lastStop
          (c :: more, done)
        | [] => ([], false)
      if m.start = m.stop && lastStop = some m.start then
        let (more, done) := stepOver m.start count none
        (front ++ more, done)
      else
        let number := count + 1
        if number < s.first then
          let text := m.group e.line 0
          if m.start = m.stop then
            let (more, done) := stepOver m.stop number none
            (front ++ more, done)
          else
            let (more, done) := replaceFrom e s fuel m.stop number (some m.stop)
            (front ++ text ++ more, done)
        else
          let new := replacement e.line m s.replacement
          if !s.all then (front ++ new ++ e.line.drop m.stop, true)
          else if m.start = m.stop then
            let (more, _) := stepOver m.stop number none
            (front ++ new ++ more, true)
          else
            let (more, _) := replaceFrom e s fuel m.stop number (some m.stop)
            (front ++ new ++ more, true)

def substitute (e : Editor) (s : Substitution) : Editor :=
  let (line, done) := e.replaceFrom s (e.line.length + 2) 0 0 none
  let e := e.remember s.pattern
  if !done then e
  else
    let e := { e with line, changed := true }
    let e := if s.prints then e.emitLine line else e
    match s.target with
    | some path => e.emitTo path line
    | none => e

/-! ## Lines -/

/-- Takes the next line of the input. -/
def advance (e : Editor) : Option (InputLine × Editor) :=
  match e.left with
  | line :: left => some (line, { e with left, number := e.number + 1, ended := line.ended })
  | [] => none

/-- A character that is shown without doubt. -/
def shownChar (c : Char) : List Char :=
  match c with
  | '\\' => ['\\', '\\']
  | '\x07' => ['\\', 'a']
  | '\x08' => ['\\', 'b']
  | '\x0c' => ['\\', 'f']
  | '\n' => ['\\', 'n']
  | '\r' => ['\\', 'r']
  | '\t' => ['\\', 't']
  | '\x0b' => ['\\', 'v']
  | c =>
    if 32 ≤ c.toNat && c.toNat < 127 then [c]
    else
      let digits := Nat.toDigits 8 c.toNat
      '\\' :: (List.replicate (3 - digits.length) '0' ++ digits)

/-- Shown characters in lines of at most 69, each but the last with a backslash behind it. -/
def shownLines (items : List (List Char)) : List Char :=
  let step := fun (state : Nat × List (List Char)) (item : List Char) =>
    let (width, done) := state
    if width + item.length > 69 then (item.length, item :: ['\\', '\n'] :: done)
    else (width + item.length, item :: done)
  ((items.foldl step (0, [])).2.reverse).flatten ++ ['$', '\n']

/-- Writes what was queued for the end of the cycle. -/
def flush (setting : EditSetting) (e : Editor) : Editor :=
  let e := e.queued.foldl (fun e (isFile, text) =>
    if isFile then
      match setting.files.readBytes (toText text) with
      | .ok bytes => if bytes.isEmpty then e else e.emit (ofBytes bytes)
      | .error _ => e
    else e.emit text) e
  { e with queued := [] }

end Editor

/-! ## Running -/

/-- The place of a label; an empty one is the end. -/
def labelPlace? (script : Array Instruction) (name : String) : Option Nat :=
  if name = "" then some script.size
  else script.findIdx? fun i =>
    match i.action with
    | .label other => other = name
    | _ => false

/-- What one command does: the editor, and where to go on or how the cycle ends. -/
def runAction (setting : EditSetting) (script : Array Instruction) (e : Editor) (index : Nat)
    (i : Instruction) : Editor × Except CycleEnd Nat :=
  let go (e : Editor) : Editor × Except CycleEnd Nat := (e, .ok (index + 1))
  let stop (e : Editor) (c : CycleEnd) : Editor × Except CycleEnd Nat := (e, .error c)
  let jump (e : Editor) (name : String) : Editor × Except CycleEnd Nat :=
    (e, .ok ((labelPlace? script name).getD script.size))
  match i.action with
  | .openBlock => go e
  | .closeBlock => go e
  | .label _ => go e
  | .append text => go { e with queued := e.queued ++ [(false, text)] }
  | .insert text => go (e.emit text)
  | .change text =>
    let isOpen := e.ranges.any (·.1 = index)
    stop (if isOpen && !i.selection.negated then e else e.emit text) .deleted
  | .branch name => jump e name
  | .branchIfChanged name =>
    if e.changed then jump { e with changed := false } name else go e
  | .branchUnlessChanged name =>
    if e.changed then go { e with changed := false } else jump e name
  | .delete => stop e .deleted
  | .deleteLine =>
    match e.line.span (· ≠ '\n') with
    | (_, _ :: rest) => stop { e with line := rest, keepsLine := true } .deleted
    | _ => stop e .deleted
  | .get => go { e with line := e.held }
  | .getMore => go { e with line := e.line ++ '\n' :: e.held }
  | .hold => go { e with held := e.line }
  | .holdMore => go { e with held := e.held ++ '\n' :: e.line }
  | .exchange => go { e with line := e.held, held := e.line }
  | .show => go (e.emit (String.ofList (Editor.shownLines (e.line.map Editor.shownChar))))
  | .next =>
    if e.isLast then stop e (.quit 0 false)
    else
      let e := if setting.silent then e else e.emitLine e.line
      let e := e.flush setting
      match e.advance with
      | some (line, e) => go { e with line := line.text.toList }
      | none => stop e (.quit 0 true)
  | .nextMore =>
    let e := e.flush setting
    match e.advance with
    | some (line, e) => go { e with line := e.line ++ '\n' :: line.text.toList }
    | none => stop e (.quit 0 false)
  | .print => go (e.emitLine e.line)
  | .printLine => go (e.emit (String.ofList (e.line.takeWhile (· ≠ '\n')) ++ "\n"))
  | .printNumber => go (e.emit (toString e.number ++ "\n"))
  | .printName => go (e.emit (setting.name ++ "\n"))
  | .quit status => stop e (.quit status false)
  | .quitSilently status => stop e (.quit status true)
  | .readFile path => go { e with queued := e.queued ++ [(true, path)] }
  | .writeFile path => go (e.emitTo path e.line)
  | .writeLine path => go (e.emitTo path (e.line.takeWhile (· ≠ '\n')))
  | .substitute s => go (e.substitute s)
  | .mapLetters pairs =>
    go { e with line := e.line.map fun c => ((pairs.find? (·.1 = c)).map (·.2)).getD c }
  | .clear => go { e with line := [] }

/-- Runs commands from a place on, up to a number of them. -/
def runCycle (setting : EditSetting) (script : Array Instruction) :
    Nat → Editor → Nat → Editor × CycleEnd
  | 0, e, _ => (e, .fault "the script does not end")
  | steps + 1, e, index =>
    match script[index]? with
    | none => (e, .proceed)
    | some i =>
      let (e, found) := e.selects index i.selection
      if found then
        match runAction setting script e index i with
        | (e, .ok next) => runCycle setting script steps e next
        | (e, .error c) => (e, c)
      else runCycle setting script steps e i.stop

/-- The number of commands that one cycle may run. -/
def maxCycleSteps : Nat := 1000000

/-- Runs the script on every line that is left. -/
def runCycles (setting : EditSetting) (script : Array Instruction) : Nat → Editor → Editor × CycleEnd
  | 0, e => (e, .fault "the script does not end")
  | cycles + 1, e =>
    let begun : Option Editor :=
      if e.keepsLine then some { e with keepsLine := false }
      else e.advance.map fun (line, e) => { e with line := line.text.toList, changed := false }
    match begun with
    | none => (e, .proceed)
    | some e =>
      let (e, c) := runCycle setting script maxCycleSteps e 0
      match c with
      | .proceed =>
        let e := if setting.silent then e else e.emitLine e.line
        runCycles setting script cycles (e.flush setting)
      | .deleted => runCycles setting script cycles (e.flush setting)
      | .quit status silently =>
        let e := if setting.silent || silently then e else e.emitLine e.line
        (if silently then e else e.flush setting, .quit status silently)
      | .fault message => (e, .fault message)

def inputLines (text : String) : List InputLine :=
  let (all, ended) := linesAndEnd text
  all.zipIdx.map fun (line, i) => ⟨line, ended || i + 1 < all.length⟩

/-- Lines of several files; only the last one of all may be open. -/
def joinInputs (inputs : List (List InputLine)) : List InputLine :=
  let all := inputs.flatten
  let last := all.length - 1
  all.zipIdx.map fun (line, i) => if i = last then line else { line with ended := true }

/-- The ranges that are open in front of the first line. -/
def openRanges (script : Array Instruction) : List (Nat × Nat) :=
  script.toList.zipIdx.filterMap fun (i, index) =>
    match i.selection.first, i.selection.stop with
    | some (.line 0), some _ => some (index, 0)
    | _, _ => none

def Editor.start (script : Array Instruction) (left : List InputLine) : Editor :=
  ⟨left, 0, [], true, [], [], false, openRanges script, none, false, false, [], []⟩

def editForms : List OptionForm := [
  flag 'n' "quiet", longFlag 'n' "silent", valued 'e' "expression", valued 'f' "file",
  flag 'E' "regexp-extended", flag 'r' "", ⟨'i', "in-place", .perhaps, true⟩, flag 's' "separate",
  flag 'u' "unbuffered", flag 'z' "null-data", longFlag 'P' "posix", valued 'l' "line-length"]

def editUsage (name : String) : String :=
  "Usage: " ++ name ++ " [OPTION]... \x7bscript-only-if-no-other-script\x7d [input-file]...\n"

/-- The fragments of the script, each with the way it is named in messages, and the paths. -/
def editScripts (c : Call) (o : Choices) : Task (Option (List String × List String)) := do
  if o.has 'e' || o.has 'f' then
    let mut scripts : List String := []
    for (letter, value) in o.options do
      if letter = 'e' then scripts := value :: scripts
      if letter = 'f' then
        match ← read value with
        | .ok text => scripts := Shell.dropLineEnds text :: scripts
        | .error cause =>
          refuse c 1 ("couldn't open file " ++ value ++ ": " ++ cause.reason)
          return none
    return some (scripts.reverse, o.operands)
  else
    match o.operands with
    | [] =>
      write .errors (editUsage c.name)
      finish 1
      return none
    | first :: rest => return some ([first], rest)

/-- The number of a fragment and the place in it, for a place in the text of all. -/
def faultPlace : Nat → Nat → List String → Nat × Nat
  | number, place, [] => (number, place)
  | number, place, [_] => (number, place)
  | number, place, text :: rest =>
    if place ≤ text.length then (number, place)
    else faultPlace (number + 1) (place - (text.length + 1)) rest

/-- The label that a command of a script names but none defines. -/
def missingLabel? (script : Array Instruction) : Option String :=
  script.toList.findSome? fun i =>
    match i.action.jump? with
    | some name => if (labelPlace? script name).isSome then none else some name
    | none => none

/-- Runs a script on one text, and hands on what it writes to files. -/
def editText (c : Call) (setting : EditSetting) (script : Array Instruction) (e : Editor) :
    Task (Editor × CycleEnd) := do
  let (e, result) := runCycles setting script (4 * e.left.length + 1000000) e
  let mut begun : List String := []
  for (path, text) in e.files do
    if path = "/dev/stderr" then write .errors text
    else
      match ← store path text (begun.contains path) with
      | .ok () => begun := path :: begun
      | .error cause => refuse c 4 ("couldn't open file " ++ path ++ ": " ++ cause.reason)
  return (e, result)

def finishEdit (c : Call) (result : CycleEnd) : Task Unit := do
  match result with
  | .quit status _ => if status ≠ 0 then finish status
  | .fault message => refuse c 1 message
  | _ => pure ()

/-- Edits files one by one and puts the results in their places. -/
def editInPlace (c : Call) (silent : Bool) (script : Array Instruction) (suffix : String)
    (paths : List String) : Task Unit := do
  for path in paths do
    let files := (← get).files
    match files.readBytes (toText path) with
    | .error .isDirectory => refuse c 4 ("couldn't edit " ++ path ++ ": not a regular file")
    | .error cause => refuse c 2 ("can't read " ++ path ++ ": " ++ cause.reason)
    | .ok bytes =>
      let text := ofBytes bytes
      let (e, result) ← editText c ⟨silent, files, path⟩ script (Editor.start script (inputLines text))
      if suffix ≠ "" then
        let _ ← store (path ++ suffix) text false
      match result with
      | .quit _ _ =>
        let rest := e.left.map fun l => l.text ++ (if l.ended then "\n" else "")
        let _ ← store path (String.join (e.emit (String.join rest)).pieces.reverse) false
        finishEdit c result
        return
      | _ =>
        let _ ← store path (String.join e.pieces.reverse) false
        finishEdit c result

def edit (c : Call) : Task Unit := do
  match readOptions editForms true c.args with
  | .error message =>
    say c message
    write .errors (editUsage c.name)
    finish 1
  | .ok o =>
    match ← editScripts c o with
    | none => pure ()
    | some (scripts, operands) =>
      let form := if o.has 'E' || o.has 'r' then Regex.Notation.extended else .basic
      match EditScript.ofText form (Text.joinWith "\n" scripts) with
      | .error fault =>
        let (number, place) := faultPlace 1 fault.place scripts
        refuse c 1 ("-e expression #" ++ toString number ++ ", char " ++ toString place ++ ": " ++
          fault.message)
      | .ok script =>
        match missingLabel? script with
        | some name => refuse c 1 ("can't find label for jump to \x60" ++ name ++ "'")
        | none =>
          let silent := o.has 'n' || (scripts.headD "").startsWith "#n\n"
          match o.value? 'i' with
          | some suffix => editInPlace c silent script suffix operands
          | none =>
            let mut inputs : List (List InputLine) := []
            for path in (if operands.isEmpty then ["-"] else operands) do
              match ← read path with
              | .ok text => inputs := inputLines text :: inputs
              | .error .isDirectory =>
                refuse c 2 ("read error on " ++ path ++ ": Is a directory")
              | .error cause => refuse c 2 ("can't read " ++ path ++ ": " ++ cause.reason)
            let files := (← get).files
            let setting : EditSetting := ⟨silent, files, "-"⟩
            if o.has 's' then
              for input in inputs.reverse do
                let (e, result) ← editText c setting script (Editor.start script input)
                put (String.join e.pieces.reverse)
                finishEdit c result
            else
              let input := joinInputs inputs.reverse
              let (e, result) ← editText c setting script (Editor.start script input)
              put (String.join e.pieces.reverse)
              finishEdit c result

end CommandContract.Utility
