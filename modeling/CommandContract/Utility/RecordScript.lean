import CommandContract.Members
import CommandContract.Number.Binary64
import CommandContract.Utility.Regex

set_option autoImplicit false

/-!
# Record scripts

Programs that run on every record of a text: rules of a pattern and an action, and functions. Names
stand for numbers and texts alike, or for arrays whose indices are texts.
-/
namespace CommandContract.Utility.RecordScript

inductive Operation where
  | add
  | subtract
  | multiply
  | divide
  | remainder
  | power
  deriving DecidableEq, Repr

inductive Relation where
  | less
  | atMost
  | equal
  | unequal
  | more
  | atLeast
  deriving DecidableEq, Repr

/-- The functions that need not be defined. -/
inductive Builtin where
  | length
  | part
  | index
  | split
  | replaceOne
  | replaceAll
  | find
  | format
  | lower
  | upper
  | whole
  | squareRoot
  | close
  | flush
  deriving DecidableEq, Repr

inductive Expression where
  | number (x : Binary64)
  | text (cs : List Char)
  | regex (r : Regex)
  | named (name : String)
  | element (array : String) (index : List Expression)
  | field (number : Expression)
  /-- expressions in parentheses -/
  | list (items : List Expression)
  /-- sets a place, to a value or to what an operation makes of both -/
  | assign (place : Expression) (op : Option Operation) (value : Expression)
  /-- changes a place by one; the value is that before or after it -/
  | step (place : Expression) (op : Operation) (isAfter : Bool)
  | negative (a : Expression)
  | positive (a : Expression)
  | not (a : Expression)
  | operation (op : Operation) (a b : Expression)
  | relation (r : Relation) (a b : Expression)
  | joined (a b : Expression)
  | both (a b : Expression)
  | either (a b : Expression)
  | choice (test a b : Expression)
  | fits (expected : Bool) (a pattern : Expression)
  | has (array : String) (index : List Expression)
  | builtin (f : Builtin) (args : List Expression)
  | call (f : String) (args : List Expression)
  /-- takes the next record of the input, or a line of a file -/
  | next (place path : Option Expression)
  deriving Inhabited

/-- Where a text is written: to a file, from its beginning or at its end. -/
structure Outlet where
  atEnd : Bool
  path : Expression

inductive Statement where
  | expression (e : Expression)
  | print (args : List Expression) (outlet : Option Outlet)
  | printFormatted (args : List Expression) (outlet : Option Outlet)
  | block (items : List Statement)
  | choose (test : Expression) (yes : Statement) (no : Option Statement)
  | repeatWhile (test : Expression) (body : Statement)
  | repeatUntil (body : Statement) (test : Expression)
  | repeatCounting (test : Option Expression) (next body : Statement)
  | forKeys (name array : String) (body : Statement)
  | delete (array : String) (index : Option (List Expression))
  | nextRecord
  | exit (status : Option Expression)
  | answer (value : Option Expression)
  | leaveLoop
  | nextRound
  deriving Inhabited

inductive Pattern where
  | first
  | last
  | always
  | when (test : Expression)
  /-- from a record to another -/
  | between (start stop : Expression)

structure Rule where
  pattern : Pattern
  /-- without an action the record is printed -/
  action : Option Statement

structure Function where
  parameters : List String
  body : Statement

end RecordScript

structure RecordScript where
  rules : List RecordScript.Rule
  functions : Members RecordScript.Function

end CommandContract.Utility
