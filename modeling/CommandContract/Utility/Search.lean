import CommandContract.Utility.Regex
import CommandContract.Utility.Task

set_option autoImplicit false

/-!
# Searching

Lines that hold a match of one of some patterns are shown, counted, or only asked for.
-/
namespace CommandContract.Utility

/-- How patterns are written. -/
inductive PatternForm where
  | fixed
  | regex (n : Regex.Notation)
  deriving DecidableEq, Repr

def searchForms : List OptionForm := [
  flag 'E' "extended-regexp", flag 'F' "fixed-strings", flag 'G' "basic-regexp",
  flag 'P' "perl-regexp", valued 'e' "regexp", valued 'f' "file", flag 'i' "ignore-case",
  flag 'y' "", flag 'v' "invert-match", flag 'w' "word-regexp", flag 'x' "line-regexp",
  flag 'c' "count", flag 'l' "files-with-matches", flag 'L' "files-without-match",
  valued 'm' "max-count", flag 'o' "only-matching", flag 'q' "quiet", longFlag 'q' "silent",
  flag 's' "no-messages", flag 'n' "line-number", flag 'b' "byte-offset", flag 'H' "with-filename",
  flag 'h' "no-filename", longValued 'B' "label", flag 'r' "recursive", flag 'R' "", flag 'a' "text",
  valued 'A' "after-context", valued 'C' "context", valued 'B' "before-context", flag 'z' "null-data",
  flag 'Z' "null", flag 'U' "binary", flag 'I' "", ⟨'K', "color", .perhaps, false⟩,
  ⟨'K', "colour", .perhaps, false⟩, longFlag 'u' "line-buffered"]

/-- An expression that matches a text and nothing else. -/
def literalRegex (text : String) : Regex :=
  text.toList.foldr (fun c r => .sequence (Regex.ofChar c) r) .empty

def patternRegex (form : PatternForm) (text : String) : Except String Regex :=
  match form with
  | .fixed => .ok (literalRegex text)
  | .regex n => (Regex.ofText n text).map (·.1)

/-- What is searched for, and how matches are shown. -/
structure SearchSetting where
  regex : Option Regex
  foldsCase : Bool
  inverted : Bool
  onlyMatches : Bool
  numbered : Bool
  offsets : Bool
  named : Bool
  most : Option Nat
  before : Nat
  behind : Nat

/-- The expression for all patterns, at words or whole lines only if asked for. -/
def searchedRegex (o : Choices) (form : PatternForm) (patterns : List String) :
    Except String (Option Regex) := do
  let all ← patterns.mapM (patternRegex form)
  let bounded (r : Regex) : Regex :=
    if o.has 'x' then .sequence .textStart (.sequence r .textEnd)
    else if o.has 'w' then .sequence .noWordBefore (.sequence r .noWordBehind)
    else r
  match all.map bounded with
  | [] => .ok none
  | r :: rs => .ok (some (rs.foldl Regex.either r))

def SearchSetting.matches (s : SearchSetting) (line : String) : Bool :=
  let found := match s.regex with
    | some r => (r.find? s.foldsCase line.toList 0).isSome
    | none => false
  found != s.inverted

/-- The matches in a line that are not empty, with their places. -/
def SearchSetting.parts (s : SearchSetting) (line : List Char) : Nat → Nat → List (Nat × String)
  | 0, _ => []
  | fuel + 1, index =>
    match s.regex.bind fun r => r.find? s.foldsCase line index with
    | none => []
    | some m =>
      if m.stop = m.start then
        if line.length ≤ m.stop then [] else s.parts line fuel (m.stop + 1)
      else (m.start, String.ofList (m.group line 0)) :: s.parts line fuel m.stop

/-- What stands in front of a line. -/
def SearchSetting.lead (s : SearchSetting) (name : String) (number offset : Nat) (mark : String) :
    String :=
  (if s.named then name ++ mark else "") ++ (if s.numbered then toString number ++ mark else "") ++
    (if s.offsets then toString offset ++ mark else "")

/-- The places where lines begin. -/
def lineOffsets : Nat → List String → List Nat
  | _, [] => []
  | at_, line :: rest => at_ :: lineOffsets (at_ + line.length + 1) rest

/-- The lines that are shown of a text, with those around them, and the number of those that match.
-/
def SearchSetting.shown (s : SearchSetting) (name text : String) : List String × Nat :=
  let all := lines text
  let found := (all.zipIdx.filter fun (line, _) => s.matches line).map (·.2)
  let found := match s.most with
    | some n => found.take n
    | none => found
  let offsets := (lineOffsets 0 all).toArray
  let items := all.toArray
  let hits := found.toArray
  if s.onlyMatches then
    if s.inverted then ([], found.length)
    else
      (found.flatMap fun i =>
        let line := (items[i]?.getD "").toList
        (s.parts line (line.length + 1) 0).map fun (start, part) =>
          s.lead name (i + 1) ((offsets[i]?.getD 0) + start) ":" ++ part, found.length)
  else
    let isNear (i : Nat) : Bool := found.any fun h => h ≤ i + s.before && i ≤ h + s.behind
    let near := (List.range all.length).filter isNear
    let step := fun (state : Option Nat × List String) (i : Nat) =>
      let mark := if hits.contains i then ":" else "-"
      let line := s.lead name (i + 1) (offsets[i]?.getD 0) mark ++ (items[i]?.getD "")
      let gap := (s.before > 0 || s.behind > 0) && (match state.1 with
        | some last => last + 1 < i
        | none => false)
      (some i, line :: (if gap then "--" :: state.2 else state.2))
    ((near.foldl step (none, [])).2.reverse, found.length)

/-- The files at or below a path. -/
def filesBelow (tree : FileTree) (path : String) : List String :=
  match tree.locate (toText path) with
  | .error _ => [path]
  | .ok location =>
    if tree.entry? location ≠ some .directory then [path]
    else
      (tree.entries.filterMap fun e =>
        match e.2 with
        | .file _ _ =>
          if location.isPrefixOf e.1 then
            some (path ++ (if path.endsWith "/" then "" else "/") ++
              ofText (Text.joinWith "/" (e.1.drop location.length)))
          else none
        | _ => none).mergeSort fun a b => a ≤ b

def searchUsage (name : String) : String :=
  "Usage: " ++ name ++ " [OPTION]... PATTERNS [FILE]...\nTry '" ++ name ++
    " --help' for more information.\n"

/-- The patterns of options or of the first operand, and the paths. -/
def searchPatterns (c : Call) (o : Choices) : Task (Option (List String × List String)) := do
  let isGiven := o.has 'e' || o.has 'f'
  let mut patterns : List (List String) := []
  for (letter, value) in o.options do
    if letter = 'e' then patterns := (value.splitOn "\n") :: patterns
    if letter = 'f' then
      match ← read value with
      | .ok text => patterns := lines text :: patterns
      | .error cause =>
        refuse c 2 (value ++ ": " ++ cause.reason)
        return none
  if isGiven then return some (patterns.reverse.flatten, o.operands)
  else
    match o.operands with
    | [] => return none
    | first :: rest => return some (first.splitOn "\n", rest)

/-- An old-style number of lines around matches. -/
def oldContext (args : List String) : List String :=
  args.map fun a =>
    match a.toList with
    | '-' :: d :: ds => if (d :: ds).all Char.isDigit then "-C" ++ String.ofList (d :: ds) else a
    | _ => a

def searchLines (c : Call) : Task Unit := do
  match readOptions searchForms true (oldContext c.args) with
  | .error message =>
    write .errors (c.name ++ ": " ++ message ++ "\n" ++ searchUsage c.name)
    finish 2
  | .ok o =>
    let form := match o.last? ['E', 'F', 'G', 'P'] with
      | some 'F' => PatternForm.fixed
      | some 'E' => .regex .extended
      | some 'P' => .regex .extended
      | some _ => .regex .basic
      | none =>
        if c.name.endsWith "egrep" then .regex .extended
        else if c.name.endsWith "fgrep" then .fixed
        else .regex .basic
    match ← searchPatterns c o with
    | none =>
      if (← get).status = 0 then
        write .errors (searchUsage c.name)
        finish 2
    | some (patterns, operands) =>
      match searchedRegex o form patterns with
      | .error message => refuse c 2 message
      | .ok regex =>
        let number (letter : Char) : Option Nat := (o.value? letter).bind String.toNat?
        let recursive := o.has 'r' || o.has 'R'
        let paths :=
          if operands.isEmpty then (if recursive then ["."] else ["-"]) else operands
        let tree := (← get).files
        let paths := if recursive then paths.flatMap (filesBelow tree) else paths
        let s : SearchSetting := {
          regex
          foldsCase := o.has 'i' || o.has 'y'
          inverted := o.has 'v'
          onlyMatches := o.has 'o'
          numbered := o.has 'n'
          offsets := o.has 'b'
          named := (operands.length > 1 || recursive || o.has 'H') && !o.has 'h'
          most := number 'm'
          before := ((number 'B').orElse fun _ => number 'C').getD 0
          behind := ((number 'A').orElse fun _ => number 'C').getD 0 }
        let mut any := false
        let mut failed := false
        for path in paths do
          let name := if path = "-" then "(standard input)" else path
          match ← read path with
          | .error cause =>
            failed := true
            if !o.has 's' then say c (path ++ ": " ++ cause.reason)
          | .ok text =>
            let (shown, count) := s.shown name text
            if o.has 'q' then
              if count > 0 then
                finish 0
                return
            else if o.has 'l' then
              if count > 0 then putLine name
            else if o.has 'L' then
              if count = 0 then putLine name
            else if o.has 'c' then putLine ((if s.named then name ++ ":" else "") ++ toString count)
            else if text.toList.contains '\x00' && count > 0 && !o.has 'a' then
              say c (name ++ ": binary file matches")
            else put (unlines shown)
            any := any || (if o.has 'L' then count = 0 else count > 0)
        finish (if failed then 2 else if any then 0 else 1)

end CommandContract.Utility
