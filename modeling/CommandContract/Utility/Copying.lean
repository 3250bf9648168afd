import CommandContract.Utility.Task

set_option autoImplicit false

/-!
# Copying

Utilities that write what they read: whole files, from the back, or only their beginning or end.
-/
namespace CommandContract.Utility

/-! ## Whole files -/

/-- How lines are shown when files are written one after the other. -/
structure Display where
  numbersAll : Bool
  numbersFilled : Bool
  marksEnds : Bool
  marksTabs : Bool
  marksOthers : Bool
  squeezes : Bool
  deriving DecidableEq, Repr

/-- A byte in the way of `^X` and `M-X`. -/
def shownByte (c : Char) : List Char :=
  let n := c.toNat
  let low (n : Nat) : List Char :=
    if n < 32 then ['^', Char.ofNat (n + 64)] else if n = 127 then ['^', '?'] else [Char.ofNat n]
  if n < 128 then low n else 'M' :: '-' :: low (n - 128)

def Display.char (d : Display) (c : Char) : List Char :=
  if c = '\t' then (if d.marksTabs then ['^', 'I'] else [c])
  else if c = '\n' then (if d.marksEnds then ['$', '\n'] else [c])
  else if d.marksOthers then shownByte c
  else [c]

/-- Shows a text as one run of lines; a number stands in front of a line that counts. -/
def Display.text (d : Display) (text : String) : String :=
  let (all, ended) := linesAndEnd text
  let last := all.length - 1
  let step := fun (state : Nat × Nat × List String) (item : String × Nat) =>
    let (number, blanks, shown) := state
    let (line, index) := item
    let isBlank := line = "" && (ended || index ≠ last)
    if isBlank && d.squeezes && blanks > 0 then state
    else
      let counts := if d.numbersFilled then !isBlank else d.numbersAll
      let lead := if counts then padLeft 6 (toString (number + 1)) ++ "\t" else ""
      let lineEnd := if ended || index ≠ last then d.char '\n' else []
      let body := line.toList.flatMap d.char ++ lineEnd
      (if counts then number + 1 else number, if isBlank then blanks + 1 else 0,
        (lead ++ String.ofList body) :: shown)
  let (_, _, shown) := (all.zipIdx).foldl step (0, 0, [])
  String.join shown.reverse

/-- Reads files, and reports those that cannot be read. -/
def readEach (c : Call) (report : String → FileError → Task Unit) : List String → Task (List String)
  | [] => return []
  | path :: rest => do
    match ← read path with
    | .ok text => return text :: (← readEach c report rest)
    | .error cause =>
      report path cause
      readEach c report rest

def copyForms : List OptionForm := [
  flag 'A' "show-all", flag 'b' "number-nonblank", flag 'e' "", flag 'E' "show-ends",
  flag 'n' "number", flag 's' "squeeze-blank", flag 't' "", flag 'T' "show-tabs", flag 'u' "",
  flag 'v' "show-nonprinting"]

/-- Writes files one after the other. -/
def copy (c : Call) : Task Unit :=
  withOptions c copyForms 1 fun o => do
    let d : Display := {
      numbersAll := o.has 'n'
      numbersFilled := o.has 'b'
      marksEnds := o.has 'A' || o.has 'e' || o.has 'E'
      marksTabs := o.has 'A' || o.has 't' || o.has 'T'
      marksOthers := o.has 'A' || o.has 'e' || o.has 't' || o.has 'v'
      squeezes := o.has 's' }
    let report (path : String) (cause : FileError) : Task Unit :=
      refuse c 1 (quotedIfNeeded path ++ ": " ++ cause.reason)
    if d = ⟨false, false, false, false, false, false⟩ then
      for path in o.paths do
        match ← read path with
        | .ok text => put text
        | .error cause => report path cause
    else put (d.text (String.join (← readEach c report o.paths)))

/-- The lines of a text from the last to the first, each with its end. -/
def backwards (text : String) : String :=
  let (all, ended) := linesAndEnd text
  let whole := all.zipIdx.map fun (line, i) =>
    if ended || i + 1 < all.length then line ++ "\n" else line
  String.join whole.reverse

def copyBackwards (c : Call) : Task Unit :=
  withOptions c [] 1 fun o => do
    for path in o.paths do
      match ← read path with
      | .ok text => put (backwards text)
      | .error .isDirectory => refuse c 1 (quotedIfNeeded path ++ ": read error: Is a directory")
      | .error cause =>
        refuse c 1 ("failed to open " ++ quoted path ++ " for reading: " ++ cause.reason)

/-- Copies the input to files and to the output. -/
def copyToFiles (c : Call) : Task Unit :=
  withOptions c [flag 'a' "append", flag 'i' "ignore-interrupts", flag 'p' ""] 1 fun o => do
    match ← readInput with
    | .error cause => refuse c 1 ("read error: " ++ cause.reason)
    | .ok text =>
      for path in o.operands do
        match ← store path text (o.has 'a') with
        | .ok () => pure ()
        | .error cause => refuse c 1 (quotedIfNeeded path ++ ": " ++ cause.reason)
      put text

/-! ## Amounts -/

/-- What is counted: bytes or lines. -/
inductive Measure where
  | bytes
  | lines
  deriving DecidableEq, Repr

/-- The factor that a suffix of a number stands for. -/
def suffixFactor? (suffix : String) : Option Nat :=
  match suffix with
  | "" => some 1
  | "b" => some 512
  | "kB" => some 1000
  | "K" => some 1024
  | "k" => some 1024
  | "KiB" => some 1024
  | "MB" => some 1000000
  | "M" => some 1048576
  | "MiB" => some 1048576
  | _ => none

def amount? (text : String) : Option Nat :=
  let (digits, suffix) := text.toList.span Char.isDigit
  if digits.isEmpty then none
  else (suffixFactor? (String.ofList suffix)).map fun f =>
    (digits.foldl (fun n c => 10 * n + (c.toNat - 48)) 0) * f

/-- The length of the first lines of a text. -/
def lengthOfLines : Nat → List Char → Nat
  | 0, _ => 0
  | _ + 1, [] => 0
  | n + 1, c :: cs => 1 + lengthOfLines (if c = '\n' then n else n + 1) cs

/-- The number of lines of a text, an open one at its end with them. -/
def lineCount (text : String) : Nat := (lines text).length

/-- The length of the beginning that is asked for, or of all but an end. -/
def headLength (measure : Measure) (n : Nat) (allBut : Bool) (text : String) : Nat :=
  match measure with
  | .bytes => if allBut then text.length - n else min n text.length
  | .lines => lengthOfLines (if allBut then lineCount text - n else n) text.toList

def cutHead (measure : Measure) (n : Nat) (allBut : Bool) (text : String) : String :=
  String.ofList (text.toList.take (headLength measure n allBut text))

/-- The end that is asked for, or all from a number on. -/
def cutTail (measure : Measure) (n : Nat) (fromStart : Bool) (text : String) : String :=
  let skipped := match measure with
    | .bytes => if fromStart then n - 1 else text.length - n
    | .lines => lengthOfLines (if fromStart then n - 1 else lineCount text - n) text.toList
  String.ofList (text.toList.drop skipped)

def Measure.name : Measure → String
  | .bytes => "bytes"
  | .lines => "lines"

/-- An old-style option such as `-5` in front. -/
def oldAmount (signs : List Char) (args : List String) : List String :=
  match args with
  | arg :: rest =>
    match arg.toList with
    | s :: c :: cs =>
      if signs.contains s && c.isDigit && cs.all Char.isDigit then
        "-n" :: (if s = '+' then arg else String.ofList (c :: cs)) :: rest
      else args
    | _ => args
  | [] => []

def amountForms : List OptionForm := [
  valued 'n' "lines", valued 'c' "bytes", flag 'q' "quiet", longFlag 'q' "silent",
  flag 'v' "verbose", flag 'z' "zero-terminated"]

/-- Writes a part of every file, under headings if there are several. -/
def writeParts (c : Call) (o : Choices) (openFault : String)
    (part : String → Task (Except FileError String)) : Task Unit := do
  let headed := (o.operands.length > 1 && !o.has 'q') || o.has 'v'
  let write (first : Bool) (path : String) : Task Bool := do
    match ← part path with
    | .ok text =>
      if headed then
        let shown := if path = "-" then "standard input" else path
        put ((if first then "" else "\n") ++ "==> " ++ shown ++ " <==\n")
      put text
      return false
    | .error .isDirectory =>
      if headed then put ((if first then "" else "\n") ++ "==> " ++ path ++ " <==\n")
      refuse c 1 ("error reading " ++ quoted path ++ ": Is a directory")
      return false
    | .error cause =>
      refuse c 1 (openFault ++ quoted path ++ " for reading: " ++ cause.reason)
      return first
  let mut first := true
  for path in o.paths do
    first ← write first path

/-- The beginning of files. -/
def beginning (c : Call) : Task Unit :=
  withOptions { c with args := oldAmount ['-'] c.args } amountForms 1 fun o => do
    let measure := if o.last? ['c', 'n'] = some 'c' then Measure.bytes else .lines
    let text := (o.value? (if measure = .bytes then 'c' else 'n')).getD "10"
    let allBut := text.startsWith "-"
    let digits := if allBut || text.startsWith "+" then text.toList.drop 1 else text.toList
    match amount? (String.ofList digits) with
    | none => refuse c 1 ("invalid number of " ++ measure.name ++ ": " ++ quoted text)
    | some n =>
      writeParts c o "cannot open " fun path => do
        if path = "-" then
          match (← get).input with
          | .ok text =>
            let count := headLength measure n allBut text
            if measure = .bytes && !allBut then take count else takeBlocks 8192 count
            return .ok (cutHead measure n allBut text)
          | .error cause => return .error cause
        else if measure = .bytes && !allBut then
          let files := (← get).files
          let bytes := do files.startAt n (← files.locate (toText path))
          return bytes.map ofBytes
        else return (← read path).map (cutHead measure n allBut)

/-- The end of files. An old-style option allows for one file only. -/
def ending (c : Call) : Task Unit :=
  let args := oldAmount ['-', '+'] c.args
  if args.length > c.args.length && c.args.length > 2 then
    refuse c 1 ("option used in invalid context -- " ++ ((c.args.headD "").drop 1).toString)
  else withOptions { c with args }
      (amountForms ++ [flag 'f' "follow", valued 's' "sleep-interval"]) 1 fun o => do
    let measure := if o.last? ['c', 'n'] = some 'c' then Measure.bytes else .lines
    let text := (o.value? (if measure = .bytes then 'c' else 'n')).getD "10"
    let fromStart := text.startsWith "+"
    let digits := if fromStart || text.startsWith "-" then text.toList.drop 1 else text.toList
    match amount? (String.ofList digits) with
    | none => refuse c 1 ("invalid number of " ++ measure.name ++ ": " ++ quoted text)
    | some n =>
      writeParts c o "cannot open " fun path =>
        return (← read path).map (cutTail measure n fromStart)

end CommandContract.Utility
