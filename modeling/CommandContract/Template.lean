import CommandContract.Condition.Expression
import CommandContract.Path
import CommandContract.Text.LetterCase

set_option autoImplicit false

/-!
# Templates

A template is literal text with holes in double braces; a hole is a path and any number of filters.
It is cut into pieces first, which needs no context. Values are inserted as they are and never
scanned again.
-/
namespace CommandContract

inductive TemplateError where
  | unterminated (offset : Nat)
  | unknownFilter (name : String)
  | condition (error : Condition.Error)

def TemplateError.message : TemplateError → String
  | unterminated offset => "Unterminated template expression starting at byte " ++ toString offset
  | unknownFilter name => "Unknown template filter '" ++ name ++ "'"
  | condition error => error.message

namespace Template

structure Hole where
  path : String
  filters : List String
  deriving DecidableEq, Repr

inductive Piece where
  | text (chars : List Char)
  | hole (hole : Hole)
  deriving DecidableEq, Repr

def holeOf (inner : List Char) : Hole :=
  match Text.splitOn '|' inner with
  | [] => ⟨"", []⟩
  | path :: filters =>
    ⟨String.ofList path, filters.map fun f => String.ofList (Text.trim f)⟩

/-- The pieces from a byte offset on, and the offset of a hole that is never closed. -/
def piecesFrom : Nat → Nat → List Char → List Piece × Option Nat
  | 0, _, cs => ([.text cs], none)
  | fuel + 1, offset, cs =>
    match Text.cutAtPair? '\x7b' '\x7b' cs with
    | none => ([.text cs], none)
    | some (before, after) =>
      let start := offset + Text.byteLength before
      match Text.cutAtPair? '\x7d' '\x7d' after with
      | none => ([.text before], some start)
      | some (inner, rest) =>
        let (pieces, unclosed) := piecesFrom fuel (start + Text.byteLength inner + 4) rest
        (.text before :: .hole (holeOf inner) :: pieces, unclosed)

def pieces (template : String) : List Piece × Option Nat :=
  piecesFrom template.length 0 template.toList

/-- The five filters. -/
def filter? (name : String) : Option (Option Value → String) :=
  match name with
  | "basename" => some fun found => Path.basename (Value.textOf found)
  | "json" => some fun found => (found.getD .null).compact
  | "lower" => some fun found => Text.lower (Value.textOf found)
  | "upper" => some fun found => Text.upper (Value.textOf found)
  | "trim" => some fun found => (Value.textOf found).trimBlank
  | _ => none

def filterNames : List String := ["basename", "json", "lower", "upper", "trim"]

def applyFilters (found : Option Value) : List String → Except TemplateError (Option Value)
  | [] => .ok found
  | name :: names =>
    match filter? name with
    | some f => applyFilters (some (.string (f found))) names
    | none => .error (.unknownFilter name)

def Hole.fill (context : Value) (hole : Hole) : Except TemplateError (List Char) := do
  let found ← applyFilters (context.lookup? hole.path) hole.filters
  .ok (Value.textOf found).toList

def Piece.render (context : Value) : Piece → Except TemplateError (List Char)
  | text chars => .ok chars
  | hole h => h.fill context

def renderPieces (context : Value) : List Piece → Except TemplateError (List Char)
  | [] => .ok []
  | piece :: pieces => do
    let first ← piece.render context
    let rest ← renderPieces context pieces
    .ok (first ++ rest)

def render (template : String) (context : Value) : Except TemplateError String :=
  let (pieces, unclosed) := pieces template
  match renderPieces context pieces, unclosed with
  | .error e, _ => .error e
  | .ok _, some offset => .error (.unterminated offset)
  | .ok chars, none => .ok (String.ofList chars)

/-- The rendered text as the JSON value it spells, else as a string. -/
def renderToValue (template : String) (context : Value) : Except TemplateError Value := do
  let rendered ← render template context
  .ok ((Value.ofJson? rendered).getD (.string rendered))

mutual

/-- Renders every string inside a value. -/
def renderValue (context : Value) : Value → Except TemplateError Value
  | .string s => renderToValue s context
  | .array items => do
    let items ← renderItems context items
    .ok (.array items)
  | .object members => do
    let members ← renderMembers context members
    .ok (.object members)
  | v => .ok v

def renderItems (context : Value) : List Value → Except TemplateError (List Value)
  | [] => .ok []
  | v :: vs => do
    let v ← renderValue context v
    let vs ← renderItems context vs
    .ok (v :: vs)

def renderMembers (context : Value) :
    List (String × Value) → Except TemplateError (List (String × Value))
  | [] => .ok []
  | (k, v) :: ms => do
    let v ← renderValue context v
    let ms ← renderMembers context ms
    .ok ((k, v) :: ms)

end

end Template

/-- The truth value of a condition, its error as one of templates. -/
def Condition.check (condition : String) (context : Value) : Except TemplateError Bool :=
  match evaluate condition context with
  | .ok b => .ok b
  | .error e => .error (.condition e)

end CommandContract
