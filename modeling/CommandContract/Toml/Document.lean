import CommandContract.Members
import CommandContract.Toml.Outline
import CommandContract.Toml.Scalar

set_option autoImplicit false

/-!
# Documents

A document is a tree of tables; a table may be opened by a header, by a dotted key, or inside a
line, and what opened it decides how it may grow. The result is given as the JSON value with the
same members. The outline of the whole text is settled first; then keys, values and tables are read
in order, and the first fault counts.
-/
namespace CommandContract.Toml

inductive Fault where
  | malformed
  /-- a key has too many parts -/
  | deepKey
  deriving DecidableEq, Repr

/-- How a table came to be. -/
inductive TableKind where
  /-- on the way to the table of a header -/
  | implicit
  | header
  /-- on the way of a dotted key -/
  | dotted
  deriving DecidableEq, Repr

inductive Node where
  | leaf (v : Value)
  | table (kind : TableKind) (members : List (String × Node))
  | tables (items : List (List (String × Node)))

def orMalformed {α : Type} : Option α → Except Fault α
  | some a => .ok a
  | none => .error .malformed

/-! ## Keys -/

/-- Simple keys that one key may have. -/
def maxParts : Nat := 80

/-- The names of a key, with the number of names that may still come. -/
def namesWithin : Nat → RawKey → Except Fault (List String)
  | _, [] => .ok []
  | 0, s :: _ =>
    match name? s with
    | some _ => .error .deepKey
    | none => .error .malformed
  | room + 1, s :: more => do
    let name ← orMalformed (name? s)
    let names ← namesWithin room more
    .ok (name :: names)

def names (key : RawKey) : Except Fault (List String) := namesWithin maxParts key

/-! ## Tables -/

/-- Walks along a key below a table, makes the tables that are missing, and changes what the last
name stands for. A dotted key does not enter the table of a header. It may pass through the last
table of an array, but adds no member to it. The flag says whether members may be added here. -/
def update (way : TableKind) (open_ : Bool) (change : Option Node → Option Node) :
    List String → List (String × Node) → Option (List (String × Node))
  | [], _ => none
  | [name], members =>
    if open_ then (change (Members.get? name members)).map fun n => Members.put name n members
    else none
  | name :: names, members =>
    match Members.get? name members with
    | none =>
      (update way true change names []).map fun below => Members.put name (.table way below) members
    | some (.table kind below) =>
      if way = .dotted ∧ kind = .header then none
      else (update way true change names below).map fun below =>
        Members.put name (.table kind below) members
    | some (.tables items) =>
      match items.getLast? with
      | some last => (update way (way ≠ .dotted) change names last).map fun last =>
          Members.put name (.tables (items.dropLast ++ [last])) members
      | none => none
    | some (.leaf _) => none

def insertOnce (node : Node) : Option Node → Option Node
  | none => some node
  | some _ => none

/-- Adds a member to a table by its key. -/
def addMember (key : List String) (v : Value) (members : List (String × Node)) :
    Option (List (String × Node)) :=
  update .dotted true (insertOnce (.leaf v)) key members

/-- Opens the table of a header. -/
def openTable : Option Node → Option Node
  | none => some (.table .header [])
  | some (.table .implicit below) => some (.table .header below)
  | some _ => none

/-- Opens one more table of an array. -/
def openItem : Option Node → Option Node
  | none => some (.tables [[]])
  | some (.tables items) => some (.tables (items ++ [[]]))
  | some _ => none

/-- Adds a member to the table that was opened last. -/
def addTo (key : List String) (v : Value) : Option Node → Option Node
  | some (.table kind below) => (addMember key v below).map (.table kind)
  | some (.tables items) =>
    match items.getLast? with
    | some last => (addMember key v last).map fun last => .tables (items.dropLast ++ [last])
    | none => none
  | _ => none

mutual

def Node.value : Node → Value
  | .leaf v => v
  | .table _ members => .object (Node.memberValues members)
  | .tables items => .array (Node.itemValues items)

def Node.memberValues : List (String × Node) → List (String × Value)
  | [] => []
  | (k, n) :: ms => (k, n.value) :: Node.memberValues ms

def Node.itemValues : List (List (String × Node)) → List Value
  | [] => []
  | ms :: rest => .object (Node.memberValues ms) :: Node.itemValues rest

end

/-! ## Values -/

mutual

def Outline.value : Outline → Except Fault Value
  | .scalar s => orMalformed (scalarValue? s)
  | .array items => (Outline.itemValues items).map .array
  | .table members => (Outline.memberNodes [] members).map fun ms => .object (Node.memberValues ms)

def Outline.itemValues : List Outline → Except Fault (List Value)
  | [] => .ok []
  | o :: os => do
    let v ← o.value
    let vs ← Outline.itemValues os
    .ok (v :: vs)

/-- The members of a table inside a line, added to those before them. -/
def Outline.memberNodes (before : List (String × Node)) :
    List (RawKey × Outline) → Except Fault (List (String × Node))
  | [] => .ok before
  | (key, o) :: more => do
    let key ← names key
    let v ← o.value
    let members ← orMalformed (addMember key v before)
    Outline.memberNodes members more

end

/-! ## Lines -/

/-- The tables read so far, and the header that is open. -/
structure Document where
  members : List (String × Node)
  header : List String

def Document.add (d : Document) (key : List String) (v : Value) : Option Document :=
  let members :=
    if d.header.isEmpty then addMember key v d.members
    else update .implicit true (addTo key v) d.header d.members
  members.map fun members => { d with members }

def Document.open (d : Document) (change : Option Node → Option Node) (header : List String) :
    Option Document :=
  (update .implicit true change header d.members).map fun members => ⟨members, header⟩

def Document.addLine (d : Document) : Line → Except Fault Document
  | .header key => do
    let header ← names key
    orMalformed (d.open openTable header)
  | .item key => do
    let header ← names key
    orMalformed (d.open openItem header)
  | .member key o => do
    let key ← names key
    let v ← o.value
    orMalformed (d.add key v)

/-- The value of a whole document, if it follows the grammar. -/
def read (text : String) : Except Fault Value := do
  let lines ← orMalformed ((tokens? text.toList).bind lines?)
  let d ← lines.foldlM Document.addLine ⟨[], []⟩
  .ok (.object (Node.memberValues d.members))

end CommandContract.Toml
