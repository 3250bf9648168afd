import CommandContract.Shell.Text

set_option autoImplicit false

/-!
# Redirections

Where the streams of a command lead: to files, to other streams, or to the text of a here-document.
Words are expanded before the first file is opened.
-/
namespace CommandContract.Shell

/-- The words for a file that cannot be opened. -/
def openMessage (writes : Bool) (path : String) (cause : FileError) : String :=
  let missing := cause = .notFound || cause = .notDirectory
  if writes then
    "cannot create " ++ path ++ ": " ++ (if missing then "Directory nonexistent" else cause.reason)
  else "cannot open " ++ path ++ ": " ++ (if missing then "No such file" else cause.reason)

/-- A redirection with its words expanded. -/
inductive Target where
  | file (stream : Nat) (opening : Opening) (path : String)
  | same (stream : Nat) (other : Option Nat)
  | text (stream : Nat) (content : String)

def expandTarget (run : Runs) (r : Redirection) : Run Target := do
  match r with
  | .file stream opening w => return .file stream opening (← expandText (runInner run) false w)
  | .same stream w =>
    let text ← expandText (runInner run) false w
    match text.toList with
    | ['-'] => return .same stream none
    | [d] =>
      if d.isDigit then return .same stream (some (d.toNat - 48))
      else fault "Syntax error: Bad fd number" 2
    | _ => fault "Syntax error: Bad fd number" 2
  | .document stream number =>
    let word := ((← env).documents.find? (·.1 = number)).map (·.2)
    return .text stream (← expandText (runInner run) false (word.getD []))

/-- The stream of a path that names one. -/
def streamOf? (path : String) : Option Nat :=
  match path with
  | "/dev/stdin" => some 0
  | "/dev/stdout" => some 1
  | "/dev/stderr" => some 2
  | "/dev/fd/0" => some 0
  | "/dev/fd/1" => some 1
  | "/dev/fd/2" => some 2
  | _ => none

def putStream (stream channel : Nat) : Run Unit :=
  changeEnv fun e => { e with streams := e.streams.put stream channel }

/-- Lets a stream lead to a file. -/
def openTarget (stream : Nat) (opening : Opening) (path : String) : Run Bool := do
  let e ← env
  match (streamOf? path).bind e.streams.get? with
  | some channel =>
    putStream stream channel
    return true
  | none =>
    let s ← system
    let writes := opening ≠ .read
    let protects := opening = .write && e.options.contains 'C' && (← files).isFile (toText path)
    let opened :=
      if protects then .error .alreadyThere
      else
        s.openFile e.location (toText path) (opening = .read || opening = .readWrite) writes writes
          (opening = .write || opening = .overwrite) (opening = .append)
    match opened with
    | .ok (s, channel) =>
      setSystem s
      putStream stream channel
      return true
    | .error cause =>
      complain (openMessage writes path cause)
      return false

/-- Follows redirections in their order; the answer is whether all succeeded. -/
def follow : List Target → Run Bool
  | [] => return true
  | .file stream opening path :: rest => do
    if ← openTarget stream opening path then follow rest else return false
  | .same stream none :: rest => do
    changeEnv fun e => { e with streams := e.streams.close stream }
    follow rest
  | .same stream (some other) :: rest => do
    match (← env).streams.get? other with
    | some channel =>
      putStream stream channel
      follow rest
    | none =>
      complain (toString other ++ ": Bad file descriptor")
      return false
  | .text stream content :: rest => do
    let (s, channel) := (← system).openChannel (.waiting content)
    setSystem s
    putStream stream channel
    follow rest

/-- Runs something with redirections; a fault of theirs gives the status 2 instead. -/
def redirecting (run : Runs) (redirections : List Redirection) (body : Run Unit) : Run Unit := do
  if redirections.isEmpty then body
  else
    let targets ← redirections.mapM (expandTarget run)
    keepingStreams do
      if ← follow targets then body else setStatus 2

end CommandContract.Shell
