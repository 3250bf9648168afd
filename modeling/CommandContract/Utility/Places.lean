import CommandContract.Utility.Words

set_option autoImplicit false

/-!
# Places in the tree

Utilities that make, remove, move and list files, directories and links.
-/
namespace CommandContract.Utility

/-- Where a path leads if its last name is not followed. The path need not stand for anything. -/
def ownLocation (tree : FileTree) (path : String) : Except FileError Location := do
  let names := FileTree.piecesOf (toText path)
  match (names.filter (· ≠ ".")).getLast? with
  | none => tree.locate (toText path)
  | some name =>
    if name = ".." || path.endsWith "/" then tree.locate (toText path)
    else if path = "" then .error .notFound
    else if FileTree.isLongName name then .error .nameTooLong
    else
      let front := toText (frontPart path)
      let parent ← tree.locate front
      if tree.entry? parent = some .directory then .ok (parent ++ [name]) else .error .notDirectory

/-- Where a new entry can be made. -/
def freeLocation (tree : FileTree) (path : String) : Except FileError Location := do
  let plain := String.ofList (dropSlashes path.toList)
  let location ← ownLocation tree (if plain = "" then path else plain)
  if (tree.entry? location).isSome then .error .alreadyThere else .ok location

def setFiles (files : FileTree) : Task Unit := modify fun d => { d with files }

def tree : Task FileTree := return (← get).files

/-- The path of a name below a directory. -/
def below (directory name : String) : String :=
  if directory.endsWith "/" then directory ++ name else directory ++ "/" ++ name

def makeDirectories (c : Call) : Task Unit :=
  withOptions c [flag 'p' "parents", valued 'm' "mode", flag 'v' "verbose"] 1 fun o => do
    if o.operands.isEmpty then misuse c 1 "missing operand"
    for path in o.operands do
      let t ← tree
      let made := if o.has 'p' && path ≠ "" then t.makeDirectories (toText path) else do
        let location ← freeLocation t path
        .ok (t.put location .directory)
      match made with
      | .ok t =>
        setFiles t
        if o.has 'v' then putLine (c.name ++ ": created directory " ++ quoted path)
      | .error cause => refuse c 1 ("cannot create directory " ++ quoted path ++ ": " ++ cause.reason)

def removeDirectories (c : Call) : Task Unit :=
  withOptions c [flag 'p' "parents", flag 'v' "verbose", longFlag 'i' "ignore-fail-on-non-empty"] 1
    fun o => do
    if o.operands.isEmpty then misuse c 1 "missing operand"
    for path in o.operands do
      let t ← tree
      let result : Except FileError FileTree := do
        let location ← ownLocation t (if path.endsWith "/" then path.dropEnd 1 |>.toString else path)
        match t.entry? location with
        | none => .error .notFound
        | some .directory =>
          if (t.children location).isEmpty then .ok (t.erase location) else .error .notEmpty
        | some _ => .error .notDirectory
      match result with
      | .ok t => setFiles t
      | .error cause => refuse c 1 ("failed to remove " ++ quoted path ++ ": " ++ cause.reason)

def remove (c : Call) : Task Unit :=
  withOptions c [flag 'r' "recursive", flag 'R' "", flag 'f' "force", flag 'd' "dir", flag 'i' "",
      flag 'v' "verbose"] 1 fun o => do
    if o.operands.isEmpty && !o.has 'f' then misuse c 1 "missing operand"
    for path in o.operands do
      let t ← tree
      let result : Except FileError FileTree := do
        let location ← ownLocation t path
        match t.entry? location with
        | none => .error .notFound
        | some .directory =>
          if o.has 'r' || o.has 'R' then .ok (t.erase location)
          else if o.has 'd' then
            if (t.children location).isEmpty then .ok (t.erase location) else .error .notEmpty
          else .error .isDirectory
        | some _ => .ok (t.erase location)
      match result with
      | .ok t => setFiles t
      | .error cause =>
        if !(o.has 'f' && (cause = .notFound || cause = .notDirectory)) then
          refuse c 1 ("cannot remove " ++ quoted path ++ ": " ++ cause.reason)

def touch (c : Call) : Task Unit :=
  withOptions c [flag 'c' "no-create", flag 'a' "", flag 'm' "", valued 'd' "date", valued 't' "",
      valued 'r' "reference"] 1 fun o => do
    if o.operands.isEmpty then misuse c 1 "missing file operand"
    for path in o.operands do
      let t ← tree
      if !t.pathExists (toText path) && !o.has 'c' then
        match ← store path "" true with
        | .ok () => pure ()
        | .error cause => refuse c 1 ("cannot touch " ++ quoted path ++ ": " ++ cause.reason)

/-- Everything at and below a place, at another place. -/
def copied (t : FileTree) (source target : Location) : FileTree :=
  let found := t.entries.filter fun e => source.isPrefixOf e.1
  found.foldl (fun t e => t.put (target ++ e.1.drop source.length) e.2) t

/-- Where a source goes: below the last operand if that is a directory. -/
def targetOf (t : FileTree) (target source : String) (intoDirectory : Bool) : String :=
  if intoDirectory && t.isDirectory (toText target) then below target (lastPart source) else target

/-- The sources and the target of a call, or a complaint about them. -/
def withTarget (c : Call) (what : String) (o : Choices) (go : List String → String → Task Unit) :
    Task Unit := do
  match o.value? 't', o.operands with
  | some target, sources => go sources target
  | none, [] => misuse c 1 ("missing " ++ what ++ " operand")
  | none, [path] => misuse c 1 ("missing destination " ++ what ++ " operand after " ++ quoted path)
  | none, operands =>
    let target := operands.getLast?.getD ""
    let t ← tree
    if operands.length > 2 && !t.isDirectory (toText target) then
      if t.pathExists (toText target) then
        refuse c 1 ("target " ++ quoted target ++ ": Not a directory")
      else refuse c 1 ("target " ++ quoted target ++ ": No such file or directory")
    else go operands.dropLast target

def copyFiles (c : Call) : Task Unit :=
  withOptions c [flag 'r' "recursive", flag 'R' "", flag 'a' "archive", flag 'f' "force", flag 'p' "",
      flag 'v' "verbose", flag 'n' "no-clobber", valued 't' "target-directory", flag 'T' "",
      flag 'i' "", flag 'd' "", flag 'L' "", flag 'P' "", flag 'u' "update"] 1 fun o =>
    withTarget c "file" o fun sources target => do
      for source in sources do
        let t ← tree
        let aim := targetOf t target source (!o.has 'T')
        match t.locate (toText source) with
        | .error cause => refuse c 1 ("cannot stat " ++ quoted source ++ ": " ++ cause.reason)
        | .ok location =>
          match t.entry? location with
          | some .directory =>
            if !(o.has 'r' || o.has 'R' || o.has 'a') then
              refuse c 1 ("-r not specified; omitting directory " ++ quoted source)
            else
              match t.makeDirectories (toText aim) with
              | .ok made =>
                match made.locate (toText aim) with
                | .ok place => setFiles (copied made location place)
                | .error _ => pure ()
              | .error cause =>
                refuse c 1 ("cannot create directory " ++ quoted aim ++ ": " ++ cause.reason)
          | entry =>
            if (t.locate (toText aim)).toOption = some location then
              refuse c 1 (quoted source ++ " and " ++ quoted aim ++ " are the same file")
            else if o.has 'n' && t.pathExists (toText aim) then pure ()
            else
              let executable := match entry with
                | some (.file _ x) => x
                | _ => false
              let result : Except FileError FileTree := do
                let bytes ← t.contentAt location
                if aim.endsWith "/" then .error .notDirectory
                else
                  let place ← t.writeLocation FileTree.maxLinks (toText aim)
                  match t.entry? place with
                  | none => .ok (t.put place (.file bytes executable))
                  | some _ => t.writeAt place fun _ => bytes
              match result with
              | .ok t => setFiles t
              | .error cause =>
                refuse c 1 ("cannot create regular file " ++ quoted aim ++ ": " ++ cause.reason)

def moveFiles (c : Call) : Task Unit :=
  withOptions c [flag 'f' "force", flag 'n' "no-clobber", flag 'v' "verbose", flag 'i' "",
      valued 't' "target-directory", flag 'T' "", flag 'u' "update"] 1 fun o =>
    withTarget c "file" o fun sources target => do
      for source in sources do
        let t ← tree
        let aim := targetOf t target source (!o.has 'T')
        match ownLocation t source with
        | .error cause => refuse c 1 ("cannot stat " ++ quoted source ++ ": " ++ cause.reason)
        | .ok location =>
          if (t.entry? location).isNone then
            refuse c 1 ("cannot stat " ++ quoted source ++ ": No such file or directory")
          else
            match ownLocation t aim with
            | .error cause =>
              refuse c 1
                ("cannot move " ++ quoted source ++ " to " ++ quoted aim ++ ": " ++ cause.reason)
            | .ok place =>
              if place = location then
                refuse c 1 (quoted source ++ " and " ++ quoted aim ++ " are the same file")
              else if location.isPrefixOf place then
                refuse c 1
                  ("cannot move " ++ quoted source ++ " to a subdirectory of itself, " ++ quoted aim)
              else if o.has 'n' && (t.entry? place).isSome then pure ()
              else setFiles ((copied (t.erase place) location place).erase location)

def linkFiles (c : Call) : Task Unit :=
  withOptions c [flag 's' "symbolic", flag 'f' "force", flag 'n' "no-dereference", flag 'v' "verbose",
      flag 'T' "", flag 'r' "relative"] 1 fun o => do
    let go (source target : String) : Task Unit := do
      let t ← tree
      let aim := targetOf t target source (!o.has 'n' && !o.has 'T')
      let t := if o.has 'f' then (match ownLocation t aim with
        | .ok place => if t.entry? place = some .directory then t else t.erase place
        | .error _ => t) else t
      let kind := if o.has 's' then "symbolic link " else "hard link "
      if !o.has 's' && !t.pathExists (toText source) then
        refuse c 1 ("failed to access " ++ quoted source ++ ": No such file or directory")
      else
        match freeLocation t aim with
        | .error cause => refuse c 1 ("failed to create " ++ kind ++ quoted aim ++ ": " ++ cause.reason)
        | .ok place =>
          if o.has 's' then setFiles (t.put place (.link (toText source)))
          else
            match t.locate (toText source) with
            | .ok location => setFiles (t.put place ((t.entry? location).getD .sink))
            | .error _ => pure ()
    match o.operands with
    | [] => misuse c 1 "missing file operand"
    | [source] => go source (if o.has 'T' then source else ".")
    | operands => for source in operands.dropLast do go source (operands.getLast?.getD "")

/-- Whether a mode sets or takes the right to run a file; nothing if it leaves it. -/
def modeChange? (mode : String) : Option (Option Bool) :=
  if !mode.isEmpty && mode.toList.all fun c => '0' ≤ c && c ≤ '7' then
    some (some (mode.toList.any fun c => (c.toNat - 48) % 2 = 1))
  else
    let clauses := Text.splitOn ',' mode.toList
    let one (clause : List Char) : Option (Option Bool) :=
      match clause.dropWhile ['u', 'g', 'o', 'a'].contains with
      | op :: letters =>
        let known := ['r', 'w', 'x', 'X', 's', 't']
        if ! ['+', '-', '='].contains op || !letters.all known.contains then none
        else if letters.contains 'x' then some (some (op ≠ '-'))
        else some (if op = '=' then some false else none)
      | [] => none
    clauses.foldl (fun r clause =>
      match r, one clause with
      | some before, some change => some (change <|> before)
      | _, _ => none) (some none)

def changeModes (c : Call) : Task Unit :=
  let args := c.args.filter fun a => ! ["-R", "-v", "-f", "-c", "--"].contains a
  match args with
  | [] => misuse c 1 "missing operand"
  | [mode] => misuse c 1 ("missing operand after " ++ quoted mode)
  | mode :: paths =>
    match modeChange? mode with
    | none => misuse c 1 ("invalid mode: " ++ quoted mode)
    | some change => do
      for path in paths do
        let t ← tree
        match t.locate (toText path) with
        | .error cause => refuse c 1 ("cannot access " ++ quoted path ++ ": " ++ cause.reason)
        | .ok location =>
          match t.entry? location, change with
          | some (.file bytes _), some executable => setFiles (t.put location (.file bytes executable))
          | _, _ => pure ()

/-! ## Links and paths -/

/-- What a path stands for, where the last name may be missing. -/
def reachable (t : FileTree) (path : String) : Except FileError Location :=
  match t.locate (toText path) with
  | .error .notFound => t.writeLocation FileTree.maxLinks (toText path)
  | result => result

def showLinks (c : Call) : Task Unit :=
  withOptions c [flag 'f' "canonicalize", flag 'e' "canonicalize-existing", flag 'm' "",
      flag 'n' "no-newline",
      flag 'q' "quiet", flag 's' "silent", flag 'v' "verbose"] 1 fun o => do
    if o.operands.isEmpty then misuse c 1 "missing operand"
    for path in o.operands do
      let t ← tree
      let ending := if o.has 'n' && o.operands.length = 1 then "" else "\n"
      if o.has 'f' || o.has 'e' || o.has 'm' then
        match if o.has 'e' then t.locate (toText path) else reachable t path with
        | .ok location => put (ofText location.text ++ ending)
        | .error _ => finish 1
      else
        match ownLocation t path with
        | .ok location =>
          match t.entry? location with
          | some (.link target) => put (ofText target ++ ending)
          | _ => finish 1
        | .error _ => finish 1

def showRealPaths (c : Call) : Task Unit :=
  withOptions c [flag 'e' "canonicalize-existing", flag 'm' "canonicalize-missing", flag 's' "strip",
      flag 'q' "quiet", flag 'z' "zero"] 1 fun o => do
    if o.operands.isEmpty then misuse c 1 "missing operand"
    for path in o.operands do
      let t ← tree
      match if o.has 'e' then t.locate (toText path) else reachable t path with
      | .ok location => putLine (ofText location.text)
      | .error cause =>
        if o.has 'q' then finish 1 else refuse c 1 (quotedIfNeeded path ++ ": " ++ cause.reason)

/-! ## Listing -/

/-- The mark behind the name of an entry. -/
def markOf (o : Choices) (entry : Option FileEntry) : String :=
  match entry with
  | some .directory => if o.has 'F' || o.has 'p' then "/" else ""
  | some (.link _) => if o.has 'F' then "@" else ""
  | some (.file _ true) => if o.has 'F' then "*" else ""
  | _ => ""

/-- The lines that list a directory. -/
def listing (o : Choices) (t : FileTree) (location : Location) : List String :=
  let names := t.children location
  let names := if o.has 'a' || o.has 'A' then names else names.filter fun n => !n.startsWith "."
  let marked := names.map fun n => ofText n ++ markOf o (t.entry? (location ++ [n]))
  let dots := if o.has 'a' then
      ["." ++ markOf o (some .directory), ".." ++ markOf o (some .directory)]
    else []
  let all := (dots ++ marked).mergeSort fun a b => a ≤ b
  if o.has 'r' then all.reverse else all

/-- Lists a directory and, if asked for, those below it. -/
def listFrom (o : Choices) (t : FileTree) : Nat → String → Location → List String
  | 0, _, _ => []
  | depth + 1, path, location =>
    let own := listing o t location
    if !o.has 'R' then own
    else
      let names := (t.children location).filter fun n => !n.startsWith "." || o.has 'a' || o.has 'A'
      let inner := names.filter fun n => t.entry? (location ++ [n]) = some .directory
      own ++ inner.flatMap fun n =>
        let path := below path (ofText n)
        "" :: (path ++ ":") :: listFrom o t depth path (location ++ [n])

def listFiles (c : Call) : Task Unit :=
  withOptions c [flag 'a' "all", flag 'A' "almost-all", flag '1' "", flag 'd' "directory",
      flag 'r' "reverse",
      flag 'F' "classify", flag 'p' "", flag 'R' "recursive", flag 'C' "", flag 'x' "", flag 'h' "",
      flag 'U' "", flag 'f' "", flag 'N' "literal", flag 'q' "", flag 'L' ""] 2 fun o => do
    let t ← tree
    let operands := if o.operands.isEmpty then ["."] else o.operands
    let sorted := operands.mergeSort fun a b => a ≤ b
    let sorted := if o.has 'r' then sorted.reverse else sorted
    let mut single : List String := []
    let mut groups : List (String × Location) := []
    for path in sorted do
      match t.locate (toText path), ownLocation t path with
      | .ok location, own =>
        if t.entry? location = some .directory && !o.has 'd' then groups := (path, location) :: groups
        else
          let entry := match own with
            | .ok place => t.entry? place
            | .error _ => t.entry? location
          single := (path ++ markOf o entry) :: single
      | .error cause, own =>
        let isLink := match own with
          | .ok place => (t.entry? place).isSome
          | .error _ => false
        if isLink then single := path :: single
        else refuse c 2 ("cannot access " ++ quoted path ++ ": " ++ cause.reason)
    put (unlines single.reverse)
    let headed := operands.length > 1 || o.has 'R'
    let mut first := single.isEmpty
    for (path, location) in groups.reverse do
      if !first then putLine ""
      first := false
      if headed then putLine (path ++ ":")
      put (unlines (listFrom o t (t.height + 1) path location))

/-! ## Finding -/

/-- What a search tests of an entry. -/
inductive FindTest where
  | name (pattern : List Shell.PatternItem)
  | path (pattern : List Shell.PatternItem)
  | kind (letter : Char)
  | isEmpty
  deriving DecidableEq, Repr

def FindTest.holds (t : FileTree) (path : String) (location : Location) : FindTest → Bool
  | .name pattern => Shell.matchesAll pattern (lastPart path).toList
  | .path pattern => Shell.matchesAll pattern path.toList
  | .kind letter =>
    match t.entry? location with
    | some .directory => letter = 'd'
    | some (.file _ _) => letter = 'f'
    | some (.link _) => letter = 'l'
    | _ => letter = 'c'
  | .isEmpty =>
    match t.entry? location with
    | some .directory => (t.children location).isEmpty
    | some (.file bytes _) => bytes.isEmpty
    | _ => false

/-- The depths at which entries are shown, and the tests that have to come out as given. -/
structure FindSetting where
  least : Nat
  most : Option Nat
  tests : List (FindTest × Bool)

/-- Reads an expression of tests that all have to hold, or says what is wrong. -/
def findSetting : Bool → FindSetting → List String → Except String FindSetting
  | _, s, [] => .ok s
  | expected, s, word :: rest =>
    let add (t : FindTest) : FindSetting := { s with tests := s.tests ++ [(t, expected)] }
    let pattern (text : String) : List Shell.PatternItem :=
      Shell.patternOf (Shell.Glyphs.ofText text false)
    match word, rest with
    | "!", rest => findSetting (!expected) s rest
    | "-not", rest => findSetting (!expected) s rest
    | "-a", rest => findSetting true s rest
    | "-print", rest => findSetting true s rest
    | "-empty", rest => findSetting true (add .isEmpty) rest
    | "-name", text :: rest => findSetting true (add (.name (pattern text))) rest
    | "-path", text :: rest => findSetting true (add (.path (pattern text))) rest
    | "-type", text :: rest => findSetting true (add (.kind (text.toList.headD 'f'))) rest
    | "-maxdepth", text :: rest => findSetting true { s with most := text.toNat? } rest
    | "-mindepth", text :: rest => findSetting true { s with least := text.toNat?.getD 0 } rest
    | word, [] =>
      if ["-name", "-path", "-type", "-maxdepth", "-mindepth"].contains word then
        .error ("missing argument to \x60" ++ word ++ "'")
      else .error ("unknown predicate \x60" ++ word ++ "'")
    | word, _ => .error ("unknown predicate \x60" ++ word ++ "'")

def foundFrom (s : FindSetting) (t : FileTree) : Nat → Nat → String → Location → List String
  | 0, _, _, _ => []
  | fuel + 1, depth, path, location =>
    let fits := s.least ≤ depth &&
      s.tests.all fun (test, expected) => test.holds t path location = expected
    let deeper := (match s.most with
      | some n => depth < n
      | none => true) && t.entry? location = some .directory
    let inner := if deeper then
        (t.children location).flatMap fun n =>
          foundFrom s t fuel (depth + 1) (below path (ofText n)) (location ++ [n])
      else []
    (if fits then [path] else []) ++ inner

/-- Shows the paths at and below some places that pass tests. -/
def findFiles (c : Call) : Task Unit := do
  let (paths, expression) := c.args.span fun a => !(a.startsWith "-" || a = "!" || a = "(")
  match findSetting true ⟨0, none, []⟩ expression with
  | .error message => refuse c 1 message
  | .ok s =>
    for path in (if paths.isEmpty then ["."] else paths) do
      let t ← tree
      match ownLocation t path with
      | .ok location =>
        if (t.entry? location).isSome then put (unlines (foundFrom s t (t.height + 1) 0 path location))
        else refuse c 1 (quoted path ++ ": No such file or directory")
      | .error cause => refuse c 1 (quoted path ++ ": " ++ cause.reason)

end CommandContract.Utility
