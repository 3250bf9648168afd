import CommandContract.Proofs.Chain.Path
import CommandContract.Proofs.Command.Line
import CommandContract.Proofs.Json.Printing

set_option autoImplicit false

/-!
# Arguments as an object

Every call can be written as its name with the compact text of its arguments in parentheses, blanks
around each part, and is read from that line as it was: `readLine_objectStyle`. Nothing in the
arguments is mistaken for the end of the line or for a separator, since the line is cut at its first
and last parenthesis only and the strict reader takes what is between.
-/
namespace CommandContract.Call

open Text (Padded isBlank)

variable {tree : FileTree} {m : Manifest} {c : String} {spec : CommandSpec} {args : Members Value}

theorem bodyArguments_compact (encodable : (Value.object args).Encodable)
    (shallow : (Value.object args).depth ≤ Json.maxDepth) :
    bodyArguments tree spec (Value.object args).compact.toList = .ok args := by
  have strict := (Value.ofJson?_compact_iff encodable).mpr ⟨shallow, rfl⟩
  refine bodyArguments_object (Value.object args).tight_compact.ne_nil ?_
  rw [Literal.parseJsonFirst, strict]

/-- How the calls of one command may be written without positional or named arguments. -/
structure ObjectStyle (tree : FileTree) (m : Manifest) (c : String) : Prop where
  object : ∀ {args : Members Value} {name body behind : List Char},
    (Value.object args).Encodable → (Value.object args).depth ≤ Json.maxDepth →
      Padded c.toList name → Padded (Value.object args).compact.toList body →
        (∀ x ∈ behind, isBlank x = true) →
          readLine tree m (String.ofList (name ++ '(' :: (body ++ ')' :: behind))) = .ok ⟨c, args⟩
  empty : ∀ {name body behind : List Char}, Padded c.toList name →
    (∀ x ∈ body, isBlank x = true) → (∀ x ∈ behind, isBlank x = true) →
      readLine tree m (String.ofList (name ++ '(' :: (body ++ ')' :: behind))) = .ok ⟨c, []⟩
  bare : ∀ {name : List Char}, Padded c.toList name →
    readLine tree m (String.ofList name) = .ok ⟨c, []⟩

theorem readLine_objectStyle (tree : FileTree) (keyed : m.Keyed) (known : m.has c = true)
    (ident : isName c.toList = true) : ObjectStyle tree m c := by
  obtain ⟨spec, found⟩ := Option.isSome_iff_exists.mp known
  have named := keyed c spec found
  subst named
  constructor
  · intro args name body behind encodable shallow padded inside blank
    rw [readLine_parenthesized found ident padded body blank,
      Text.trim_of_padded inside (Value.object args).tight_compact,
      bodyArguments_compact encodable shallow]
    rfl
  · intro name body behind padded inside blank
    rw [readLine_parenthesized found ident padded body blank, Text.trim_of_blank inside]
    rfl
  · intro name padded
    exact readLine_name found ident padded

/-- One command, in a namespace. -/
def catalogue : Manifest := (Manifest.empty "table").withCommand (.ofName "models/list")

/-- Arguments with a parenthesis, a separator and an escape in their strings, and numbers of all
three kinds. -/
def query : Members Value :=
  [("a)b", .array [.string "(\"=,", .int (-2)]), ("n", .int 18446744073709551615),
    ("x", .number (.float ⟨false, 6755399441055744, -52⟩))]

def queryLine : String :=
  " models/list (\t\x7b\"a)b\":[\"(\\\"=,\",-2],\"n\":18446744073709551615,\"x\":1.5\x7d ) "

theorem encodable_query : (Value.object query).Encodable := by
  have read : ∀ n ∈ (Value.object query).numbers, n.spelling.number? = some n := by decide +kernel
  refine ⟨by decide, fun n hn => ?_, fun x hx => Value.ofJson?_number_iff.mpr (read _ hx)⟩
  have either : n = -2 ∨ n = 18446744073709551615 := by
    simpa [query, Value.int, Value.numbers, Value.memberNumbers, Value.itemNumbers] using hn
  rcases either with rfl | rfl <;> decide

theorem readLine_objectStyle_catalogue :
    catalogue.Keyed ∧ catalogue.has "models/list" = true ∧ isName "models/list".toList = true ∧
      ObjectStyle ⟨[], []⟩ catalogue "models/list" ∧
      readLine ⟨[], []⟩ catalogue queryLine = .ok ⟨"models/list", query⟩ := by
  have keyed : catalogue.Keyed := (Manifest.keyed_empty _).withCommand _
  have known : catalogue.has "models/list" = true := by decide
  have ident : isName "models/list".toList = true := by decide
  have style := readLine_objectStyle ⟨[], []⟩ keyed known ident
  refine ⟨keyed, known, ident, style, ?_⟩
  have blank : ∀ x ∈ [' '], isBlank x = true := List.forall_mem_singleton.mpr (by decide)
  have tab : ∀ x ∈ ['\t'], isBlank x = true := List.forall_mem_singleton.mpr (by decide)
  have read := style.object encodable_query (by decide) (.mk blank blank) (.mk tab blank) blank
  have line : String.ofList ([' '] ++ "models/list".toList ++ [' '] ++ '(' ::
      ((['\t'] ++ (Value.object query).compact.toList ++ [' ']) ++ ')' :: [' '])) =
        queryLine := by
    decide +kernel
  rw [← line]
  exact read

end CommandContract.Call
