import CommandContract.FileTree
import CommandContract.Shell.Bytes

set_option autoImplicit false

/-!
# Channels

What the streams of processes lead to. Several streams may lead to one channel and share what was
read and written there. The system is the files and all channels that were ever opened.
-/
namespace CommandContract.Shell

inductive Channel where
  /-- bytes that wait to be read -/
  | waiting (rest : String)
  /-- bytes that were written, for somebody else to take -/
  | collecting (written : String)
  /-- gives nothing, takes everything -/
  | nowhere
  /-- gives zeros as long as somebody reads, takes everything -/
  | zeros
  /-- a file, read and written from a position on, or written at its end -/
  | file (location : Location) (position : Nat) (opened : Bool × Bool) (atEnd : Bool)
  | directory

structure System where
  files : FileTree
  channels : Array Channel

namespace System

/-- A new channel, by its number. -/
def openChannel (s : System) (c : Channel) : System × Nat :=
  ({ s with channels := s.channels.push c }, s.channels.size)

def channel? (s : System) (n : Nat) : Option Channel := s.channels[n]?

def setChannel (s : System) (n : Nat) (c : Channel) : System :=
  { s with channels := s.channels.setIfInBounds n c }

/-- What was written to a channel. -/
def collected (s : System) (n : Nat) : String :=
  match s.channel? n with
  | some (.collecting text) => text
  | _ => ""

/-- Writes bytes over others from a position on. -/
def overwrite (position : Nat) (new old : List Nat) : List Nat :=
  let front := old.take position
  front ++ List.replicate (position - front.length) 0 ++ new ++ old.drop (position + new.length)

def write (s : System) (n : Nat) (text : String) : Except FileError System :=
  match s.channel? n with
  | some (.collecting written) => .ok (s.setChannel n (.collecting (written ++ text)))
  | some .nowhere => .ok s
  | some .zeros => .ok s
  | some (.file location position (reads, true) atEnd) => do
    let bytes := toBytes text
    let files ← s.files.writeAt location fun old =>
      if atEnd then old ++ bytes else overwrite position bytes old
    let s := { s with files }
    .ok (s.setChannel n (.file location (position + bytes.length) (reads, true) atEnd))
  | _ => .error .badHandle

/-- Zeros that are given to one reader who asks for all. -/
def zerosAtOnce : Nat := 65536

/-- What can still be read. -/
def waiting (s : System) (n : Nat) : Except FileError String :=
  match s.channel? n with
  | some (.waiting rest) => .ok rest
  | some .nowhere => .ok ""
  | some .zeros => .ok (String.ofList (List.replicate zerosAtOnce '\x00'))
  | some (.file location position (true, _) _) =>
    (s.files.contentAt location).map fun bytes => ofBytes (bytes.drop position)
  | some .directory => .error .isDirectory
  | _ => .error .badHandle

/-- Takes characters that were read. -/
def take (s : System) (n count : Nat) : System :=
  match s.channel? n with
  | some (.waiting rest) => s.setChannel n (.waiting (String.ofList (rest.toList.drop count)))
  | some (.file location position modes atEnd) =>
    s.setChannel n (.file location (position + count) modes atEnd)
  | _ => s

/-- Opens the file that a path stands for. -/
def openFile (s : System) (here : Location) (path : String)
    (reads writes create truncate atEnd : Bool) :
    Except FileError (System × Nat) := do
  let tree := { s.files with workingDirectory := here }
  let location ← if create then tree.writeLocation FileTree.maxLinks path else tree.locate path
  match tree.entry? location with
  | some .directory =>
    if writes then .error .isDirectory else .ok (s.openChannel .directory)
  | some .sink => .ok (s.openChannel .nowhere)
  | some .zeros => .ok (s.openChannel .zeros)
  | some (.file _ _) =>
    let files ← if truncate then s.files.writeAt location fun _ => [] else .ok s.files
    .ok ({ s with files }.openChannel (.file location 0 (reads, writes) atEnd))
  | some (.link _) => .error .tooManyLinks
  | none =>
    let files ← s.files.writeAt location fun _ => []
    .ok ({ s with files }.openChannel (.file location 0 (reads, writes) atEnd))

end System

/-- The streams of a process, by their numbers, and the channels they lead to. -/
abbrev Streams := List (Nat × Nat)

namespace Streams

def get? (streams : Streams) (n : Nat) : Option Nat := (streams.find? (·.1 = n)).map (·.2)

def put (streams : Streams) (n channel : Nat) : Streams :=
  (n, channel) :: streams.filter (·.1 ≠ n)

def close (streams : Streams) (n : Nat) : Streams := streams.filter (·.1 ≠ n)

end Streams

end CommandContract.Shell
