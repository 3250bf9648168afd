import CommandContract.Shell.Bytes

set_option autoImplicit false

/-!
# Signals

Signals have numbers and names. Number zero stands for the end of a shell where traps are set.
-/
namespace CommandContract.Shell.Signal

def names : List String := [
  "EXIT", "HUP", "INT", "QUIT", "ILL", "TRAP", "ABRT", "BUS", "FPE", "KILL", "USR1", "SEGV", "USR2",
  "PIPE", "ALRM", "TERM", "STKFLT", "CHLD", "CONT", "STOP", "TSTP", "TTIN", "TTOU", "URG", "XCPU",
  "XFSZ", "VTALRM", "PROF", "WINCH", "POLL", "PWR", "SYS"]

/-- The number of a signal that is given by number or name. -/
def ofText? (text : String) : Option Nat :=
  if text ≠ "" && text.toList.all Char.isDigit then
    text.toNat?.filter (· < 65)
  else
    let name := String.ofList (text.toList.map Char.toUpper)
    names.idxOf? name

def name (n : Nat) : String := names[n]?.getD (toString n)

/-- Signals that do nothing to a process that does not ask for them. -/
def isHarmless (n : Nat) : Bool := [0, 17, 18, 23, 28].contains n

/-- The words for a process that a signal ended. -/
def description (n : Nat) : String :=
  match n with
  | 1 => "Hangup"
  | 3 => "Quit"
  | 4 => "Illegal instruction"
  | 6 => "Aborted"
  | 8 => "Floating point exception"
  | 9 => "Killed"
  | 10 => "User defined signal 1"
  | 11 => "Segmentation fault"
  | 12 => "User defined signal 2"
  | 14 => "Alarm clock"
  | 15 => "Terminated"
  | _ => "Signal " ++ toString n

end CommandContract.Shell.Signal
