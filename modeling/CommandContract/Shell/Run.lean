import CommandContract.Shell.Call

set_option autoImplicit false

/-!
# Running commands

Each definition gets a way to run the commands inside a command, so it goes one level down; `eval`
ties them together with a bound on the depth.
-/
namespace CommandContract.Shell

/-- Runs a part of a loop; the answer is whether the loop goes on. -/
def inLoop (body : Run Unit) : Run Bool := do
  match ← attempt body with
  | none => return true
  | some (.breaks n) => if n ≤ 1 then return false else throw (.breaks (n - 1))
  | some (.continues n) => if n ≤ 1 then return true else throw (.continues (n - 1))
  | some leave => throw leave

/-- Repeats a step as long as it asks for it, up to a number of times. -/
def repeatWhile (step : Run Bool) : Nat → Run Unit
  | 0 => pure ()
  | n + 1 => do
    if ← step then repeatWhile step n

/-- Loops end after this many rounds. -/
def maxRounds : Nat := 100000000

def changeLoops (f : Nat → Nat) : Run Unit := changeEnv fun e => { e with loops := f e.loops }

/-- One round of a loop: the test, and the body if the test asks for it. -/
def loopRound (run : Runs) (tested untilTrue : Bool) (test body : Command) (last : Nat) :
    Run (Bool × Nat) := do
  let goes ← inLoop do
    run true test
  if !goes then return (false, (← env).status)
  else if ((← env).status = 0) = untilTrue then return (false, last)
  else
    let goes ← inLoop (run tested body)
    return (goes, (← env).status)

def evalLoop (run : Runs) (tested untilTrue : Bool) (test body : Command) : Run Unit := do
  changeLoops (· + 1)
  let rec rounds : Nat → Nat → Run Nat
    | 0, last => return last
    | n + 1, last => do
      let (goes, last) ← loopRound run tested untilTrue test body last
      if goes then rounds n last else return last
  let status ← rounds maxRounds 0
  changeLoops (· - 1)
  setStatus status

def evalEach (run : Runs) (tested : Bool) (line : Nat) (name : String) (words : List Word)
    (body : Command) : Run Unit := do
  changeEnv fun e => { e with line }
  let fields ← expandWords (runInner run) words
  changeLoops (· + 1)
  let rec rounds : List String → Run Unit
    | [] => pure ()
    | field :: rest => do
      assign name field
      if ← inLoop (run tested body) then rounds rest
  setStatus 0
  rounds fields
  changeLoops (· - 1)

/-- The body of the first arm with a pattern that fits. -/
def chosenArm? (run : Runs) (text : List Char) : List (List Word × Command) → Run (Option Command)
  | [] => return none
  | (patterns, body) :: rest => do
    let rec anyFits : List Word → Run Bool
      | [] => return false
      | w :: ws => do
        if matchesAll (← expandPattern (runInner run) w) text then return true else anyFits ws
    if ← anyFits patterns then return some body else chosenArm? run text rest

/-- Runs the stages of a pipeline one after the other, each on what the one before it wrote. -/
def evalStages (run : Runs) : List Command → Run Unit
  | [] => pure ()
  | [c] => do setStatus (← inSubshell (runInner run c))
  | c :: rest => do
    let (text, _) ← collectingOutput (inSubshell (runInner run c))
    let (s, channel) := (← system).openChannel (.waiting text)
    setSystem s
    keepingStreams do
      putStream 0 channel
      evalStages run rest

/-- Runs a command beside the shell, that is, before all that follows; its input is empty. -/
def evalBackground (run : Runs) (c : Command) : Run Unit := do
  let (s, channel) := (← system).openChannel .nowhere
  setSystem s
  let status ← keepingStreams do
    putStream 0 channel
    inSubshell (runInner run c)
  let number := 1001 + (← env).jobs.length
  changeEnv fun e => { e with jobs := (number, status) :: e.jobs }
  setStatus 0

/-- Runs a command with a way to run those inside it. -/
def evalStep (run : Runs) (tested : Bool) : Command → Run Unit
  | .simple line assignments words redirections =>
    evalSimple run tested line assignments words redirections
  | .pipeline stages => do
    evalStages run stages
    checkExit tested
  | .background c => evalBackground run c
  | .negation c => do
    run true c
    setStatus (if (← env).status = 0 then 1 else 0)
  | .conjunction a b => do
    run true a
    if (← env).status = 0 then run tested b
  | .disjunction a b => do
    run true a
    if (← env).status ≠ 0 then run tested b
  | .sequence cs => do
    for c in cs do run tested c
  | .branch test body other => do
    run true test
    if (← env).status = 0 then run tested body
    else if other.isNothing then setStatus 0
    else run tested other
  | .loop untilTrue test body => evalLoop run tested untilTrue test body
  | .each line name words body => evalEach run tested line name words body
  | .choice line word arms => do
    changeEnv fun e => { e with line }
    let text ← expandText (runInner run) false word
    match ← chosenArm? run text.toList arms with
    | some body =>
      setStatus 0
      run tested body
    | none => setStatus 0
  | .subshell line body redirections => do
    changeEnv fun e => { e with line }
    let status ← inSubshell (toTheEnd run do
      let targets ← redirections.mapM (expandTarget run)
      if ← follow targets then run tested body else throw (.faults 2))
    setStatus status
    checkExit tested
  | .redirected line body redirections => do
    changeEnv fun e => { e with line }
    redirecting run redirections (run tested body)
  | .define name body => do
    changeEnv fun e => { e with functions := Members.put name body e.functions }
    setStatus 0

/-- Runs a command with others inside it down to a depth. -/
def eval : Nat → Runs
  | 0, _, _ => fault "too many commands inside each other" 2
  | depth + 1, tested, c => evalStep (eval depth) tested c

/-- Commands may stand inside each other this deep, calls counted. -/
def maxDepth : Nat := 200000

end CommandContract.Shell
