import CommandContract.Shell.Arithmetic
import CommandContract.Shell.Machine
import CommandContract.Shell.Pattern

set_option autoImplicit false

/-!
# Expansion of words

A word expands to fields. Parameters, calculations and the output of scripts are put in first; then
what was put in outside quotes is split at the separators, and fields with patterns give way to the
names of files that fit.
-/
namespace CommandContract.Shell

/-- A piece of an expanded word. -/
inductive Atom where
  | glyph (g : Glyph) (splits : Bool)
  /-- quotes stood here, so there is a field even if it is empty -/
  | edge
  /-- a field ends here -/
  | cut

/-- How a word is expanded. -/
structure Mode where
  /-- what is put in outside quotes is split -/
  splits : Bool
  /-- so is the text itself -/
  textSplits : Bool
  deriving DecidableEq, Repr

def atomsOf (s : String) (quoted splits : Bool) : List Atom :=
  let atoms := s.toList.map fun c => Atom.glyph ⟨c, quoted⟩ (splits && !quoted)
  if quoted then .edge :: atoms else atoms

def glyphsOf (atoms : List Atom) : Glyphs :=
  atoms.filterMap fun a =>
    match a with
    | .glyph g _ => some g
    | .edge => none
    | .cut => some ⟨' ', false⟩

def textOf (atoms : List Atom) : String := (glyphsOf atoms).text

/-! ## Parameters -/

/-- The characters that separate fields. -/
def separators : Run (List Char) := do
  match ← value? "IFS" with
  | some s => return s.toList
  | none => return [' ', '\t', '\n']

/-- What stands between arguments that are joined. -/
def joint : Run String := do
  match ← value? "IFS" with
  | some s => return String.ofList (s.toList.take 1)
  | none => return " "

/-- The value of a parameter, if it has one. -/
def parameter? (name : String) : Run (Option String) := do
  let e ← env
  match name with
  | "?" => return some (toString e.status)
  | "#" => return some (toString e.args.length)
  | "$" => return some processNumber
  | "!" => return e.jobs.head?.map fun job => toString job.1
  | "-" => return some (String.ofList (shownLetters.filter e.options.contains))
  | "0" => return some e.name
  | "@" => return if e.args.isEmpty then none else some (Text.joinWith " " e.args)
  | "*" =>
    let between ← joint
    return if e.args.isEmpty then none else some (Text.joinWith between e.args)
  | name =>
    match name.toNat? with
    | some n => return e.args[n - 1]?
    | none => value? name

/-- All arguments. Inside quotes each is a field of its own. -/
def argumentAtoms (m : Mode) (quoted : Bool) : Run (List Atom) := do
  let args := (← env).args
  let pieces := args.map fun a => atomsOf a quoted m.splits
  if m.splits then return (pieces.intersperse [Atom.cut]).flatten
  else return (pieces.intersperse (atomsOf " " true false)).flatten

/-- The atoms of the value of a parameter. -/
def valueAtoms (m : Mode) (name : String) (quoted : Bool) : Run (List Atom) := do
  if name = "@" || (name = "*" && !quoted && m.splits) then argumentAtoms m quoted
  else return atomsOf ((← parameter? name).getD "") quoted m.splits

def unsetMessage (name : String) (emptyToo : Bool) : String :=
  name ++ ": parameter not set" ++ (if emptyToo then " or null" else "")

/-! ## Numbers of variables -/

/-- The number that a text spells, with blanks around it and in any base. -/
def integerText? (s : String) : Option Int :=
  let cs := s.toList.dropWhile isSpaceChar
  let (negative, body) :=
    match cs with
    | '-' :: r => (true, r)
    | '+' :: r => (false, r)
    | r => (false, r)
  if cs.isEmpty then some 0
  else
    match body with
    | c :: _ =>
      if c.isDigit then
        let (n, rest) := Arithmetic.readNumber body
        if rest.all isSpaceChar then some (if negative then -(n : Int) else n) else none
      else none
    | [] => none

/-- The number of a variable. -/
def numberIn (bindings : Members Variable) : Arithmetic.Finder := fun given name =>
  let text := (Members.get? name given).orElse fun _ =>
    (Members.get? name bindings).bind (·.value)
  match integerText? (text.getD "") with
  | some n => .ok n
  | none => .error (.notNumber ("Illegal number: " ++ text.getD ""))

/-! ## Words -/

/-- Directories of users. -/
def homeOf? (user : String) : Run (Option String) := do
  if user = "" then value? "HOME"
  else return if user = "root" then some "/root" else none

/-- Puts in the directory of a user at the beginning of a text. -/
def expandHome (cs : List Char) (wholeWord inAssignment : Bool) : Run (List Atom × List Char) := do
  match cs with
  | '~' :: rest =>
    let (user, behind) := rest.span fun c => c ≠ '/' && !(inAssignment && c = ':')
    if behind.isEmpty && !wholeWord then return ([], cs)
    else
      match ← homeOf? (String.ofList user) with
      | some home => return (atomsOf home true false, behind)
      | none => return ([], cs)
  | cs => return ([], cs)

/-- Puts in directories of users behind the colons of an assigned text. -/
def expandHomes (wholeWord : Bool) : List (List Char) → Run (List Atom)
  | [] => return []
  | piece :: pieces => do
    let (home, behind) ← expandHome piece (wholeWord || !pieces.isEmpty) true
    let atoms := home ++ atomsOf (String.ofList behind) false false
    if pieces.isEmpty then return atoms
    else return atoms ++ atomsOf ":" false false ++ (← expandHomes wholeWord pieces)

/-- Nesting of words inside words. -/
def maxWordDepth : Nat := 200

mutual

def partAtoms (inner : Command → Run Unit) : Nat → Mode → Part → Run (List Atom)
  | 0, _, _ => fault "Bad substitution" 2
  | fuel + 1, m, part =>
    match part with
    | .text cs quoted => return atomsOf (String.ofList cs) quoted m.textSplits
    | .output script quoted => do
      let (text, status) ← collectingOutput (inSubshell (inner script))
      changeEnv fun e => { e with innerStatus := status }
      return atomsOf (dropLineEnds (text.replace "\x00" "")) quoted m.splits
    | .arithmetic word quoted => do
      let text := textOf (← partsAtoms inner fuel ⟨false, false⟩ word)
      match Arithmetic.evaluate (numberIn (← env).bindings) text with
      | .ok (n, given) =>
        for (name, v) in given do assign name v
        return atomsOf (toString n) quoted m.splits
      | .error trouble => fault (trouble.message text) 2
    | .parameter name operator word quoted => do
      let v ← parameter? name
      let missing (emptyToo : Bool) : Bool := v.isNone || (emptyToo && v = some "")
      let demanded := (← hasOption 'u') && v.isNone && name ≠ "@" && name ≠ "*"
      let other : Run (List Atom) := do
        let atoms ← partsAtoms inner fuel ⟨m.splits, m.splits⟩ word
        return if quoted then .edge :: atoms else atoms
      match operator with
      | .value =>
        if demanded then fault (unsetMessage name false) 2 else valueAtoms m name quoted
      | .length =>
        if demanded then fault (unsetMessage name false) 2
        else
          let args := (← env).args
          let n := if name = "@" || name = "*" then args.length else (v.getD "").length
          return atomsOf (toString n) quoted m.splits
      | .fallback emptyToo => if missing emptyToo then other else valueAtoms m name quoted
      | .replace emptyToo => if missing emptyToo then return if quoted then [.edge] else [] else other
      | .demand emptyToo =>
        if missing emptyToo then
          let message := textOf (← partsAtoms inner fuel ⟨false, false⟩ word)
          fault (if word.isEmpty then unsetMessage name emptyToo else name ++ ": " ++ message) 2
        else valueAtoms m name quoted
      | .assign emptyToo =>
        if missing emptyToo then
          let text := textOf (← partsAtoms inner fuel ⟨false, false⟩ word)
          if isName name then
            assign name text
            return atomsOf text quoted m.splits
          else fault (name ++ ": bad variable name") 2
        else valueAtoms m name quoted
      | .trimFront longest =>
        if demanded then fault (unsetMessage name false) 2
        else
          let items := patternOf (glyphsOf (← partsAtoms inner fuel ⟨false, false⟩ word))
          return atomsOf (String.ofList (trimFront longest items (v.getD "").toList)) quoted m.splits
      | .trimBack longest =>
        if demanded then fault (unsetMessage name false) 2
        else
          let items := patternOf (glyphsOf (← partsAtoms inner fuel ⟨false, false⟩ word))
          return atomsOf (String.ofList (trimBack longest items (v.getD "").toList)) quoted m.splits
      | .unknown => fault "Bad substitution" 2

def partsAtoms (inner : Command → Run Unit) : Nat → Mode → List Part → Run (List Atom)
  | 0, _, _ => fault "Bad substitution" 2
  | _ + 1, _, [] => return []
  | fuel + 1, m, p :: ps => do
    let atoms ← partAtoms inner fuel m p
    return atoms ++ (← partsAtoms inner fuel m ps)

end

/-- The atoms of a word, with the directory of a user in front. -/
def wordAtoms (inner : Command → Run Unit) (m : Mode) (inAssignment : Bool) (w : Word) :
    Run (List Atom) := do
  let fuel := maxWordDepth + w.length
  match w with
  | .text cs false :: ps =>
    if inAssignment then
      let first ← expandHomes ps.isEmpty (Text.splitOn ':' cs)
      return first ++ (← partsAtoms inner fuel m ps)
    else
      let (home, behind) ← expandHome cs ps.isEmpty false
      return home ++ (← partsAtoms inner fuel m (.text behind false :: ps))
  | w => partsAtoms inner fuel m w

/-! ## Fields -/

/-- The field that is being built, and what ended the one before it. -/
structure Splitting where
  fields : List Glyphs
  current : Option Glyphs
  /-- a blank separator has just ended a field -/
  behindBlank : Bool

namespace Splitting

def close (s : Splitting) : Splitting :=
  match s.current with
  | some gs => { s with fields := gs.reverse :: s.fields, current := none }
  | none => s

/-- Blank separators make no empty fields; others do, unless a blank one has ended the field. -/
def add (separators : List Char) (s : Splitting) : Atom → Splitting
  | .edge => { s with current := some (s.current.getD []), behindBlank := false }
  | .cut => { s.close with behindBlank := false }
  | .glyph g splits =>
    if splits && separators.contains g.char then
      if g.char = ' ' || g.char = '\t' || g.char = '\n' then
        { s.close with behindBlank := s.behindBlank || s.current.isSome }
      else if s.current.isSome then { s.close with behindBlank := false }
      else if s.behindBlank then { s with behindBlank := false }
      else { s with fields := [] :: s.fields }
    else { s with current := some (g :: s.current.getD []), behindBlank := false }

end Splitting

/-- The fields of atoms. -/
def splitFields (separators : List Char) (atoms : List Atom) : List Glyphs :=
  (atoms.foldl (Splitting.add separators) ⟨[], none, false⟩).close.fields.reverse

/-! ## Names of files -/

/-- Cuts a field at its slashes. -/
def cutAtSlashes : Glyphs → List Glyphs
  | [] => [[]]
  | g :: gs =>
    if g.char = '/' then [] :: cutAtSlashes gs
    else
      match cutAtSlashes gs with
      | [] => [[g]]
      | piece :: pieces => (g :: piece) :: pieces

/-- The names in a directory that fit a pattern. A dot in front has to be written. -/
def fittingNames (tree : FileTree) (directory : String) (piece : Glyphs) : List String :=
  match tree.locate (if directory = "" then "." else toText directory) with
  | .ok location =>
    if tree.entry? location = some .directory then
      let items := patternOf piece
      let names := "." :: ".." :: (tree.children location).map ofText
      names.filter fun n =>
        matchesAll items n.toList && (n.toList.head? ≠ some '.' || items.head? = some (.one '.'))
    else []
  | .error _ => []

/-- The paths that fit the pieces, each below the directory in front. -/
def fittingPaths (tree : FileTree) (directory : String) : List Glyphs → List String
  | [] => []
  | [piece] =>
    if hasPattern piece then (fittingNames tree directory piece).map (directory ++ ·)
    else
      let path := directory ++ piece.text
      if tree.pathExists (toText (if path = "" then "." else path)) then [path] else []
  | piece :: pieces =>
    if hasPattern piece then
      (fittingNames tree directory piece).flatMap fun n =>
        fittingPaths tree (directory ++ n ++ "/") pieces
    else fittingPaths tree (directory ++ piece.text ++ "/") pieces

/-- The names of files that a field stands for, or its own text. -/
def namesFor (gs : Glyphs) : Run (List String) := do
  if !hasPattern gs || (← hasOption 'f') then return [gs.text]
  else
    let found := fittingPaths (← files) "" (cutAtSlashes gs)
    if found.isEmpty then return [gs.text]
    else return found.mergeSort fun a b => a ≤ b

/-- The fields of a word. -/
def wordFields (inner : Command → Run Unit) (w : Word) : Run (List String) := do
  let atoms ← wordAtoms inner ⟨true, false⟩ false w
  let fields := splitFields (← separators) atoms
  return (← fields.mapM namesFor).flatten

def expandWords (inner : Command → Run Unit) (ws : List Word) : Run (List String) := do
  return (← ws.mapM (wordFields inner)).flatten

/-- The text of a word, not split. -/
def expandText (inner : Command → Run Unit) (inAssignment : Bool) (w : Word) : Run String := do
  return textOf (← wordAtoms inner ⟨false, false⟩ inAssignment w)

/-- The pattern that a word stands for. -/
def expandPattern (inner : Command → Run Unit) (w : Word) : Run (List PatternItem) := do
  return patternOf (glyphsOf (← wordAtoms inner ⟨false, false⟩ false w))

end CommandContract.Shell
