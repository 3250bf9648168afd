import CommandContract.Proofs.Command.StylesAgree
import CommandContract.Proofs.Json.Distinct

set_option autoImplicit false

/-!
# Values and their compact text

The compact text of a value whose numbers are native is read as the value, with its members in their
order, however deep it is: `Literal.parse_compact`. Where the strict reader is asked first it takes
the text of a value that is not too deep; then its own rounding decides whether a binary number is
given back. The lenient reader gives native values only, so whatever it read once it reads again.
-/
namespace CommandContract

variable {v : Value}

/-- No object has two members of one name, and the numbers are native. -/
structure Value.Native (v : Value) : Prop where
  distinct : v.Distinct
  numbers : ∀ n ∈ v.numbers, n.Native

instance : DecidablePred Value.Native := fun v =>
  decidable_of_iff (v.Distinct ∧ ∀ n ∈ v.numbers, n.Native)
    ⟨fun h => ⟨h.1, h.2⟩, fun h => ⟨h.distinct, h.numbers⟩⟩

namespace Value.Native

theorem array {items : List Value} (inside : ∀ v ∈ items, v.Native) :
    (Value.array items).Native := by
  refine ⟨.array fun v hv => (inside v hv).distinct, fun n hn => ?_⟩
  obtain ⟨v, hv, here⟩ := mem_itemNumbers.mp hn
  exact (inside v hv).numbers n here

theorem ofPairs {pairs : List (String × Value)} (inside : ∀ m ∈ pairs, m.2.Native) :
    (Value.object (Members.ofPairs pairs)).Native := by
  refine ⟨.ofPairs fun m hm => (inside m hm).distinct, fun n hn => ?_⟩
  obtain ⟨m, hm, here⟩ := mem_memberNumbers.mp hn
  exact (inside m (Members.mem_of_mem_ofPairs hm)).numbers n here

theorem encodable (native : v.Native) (floats : ∀ x, .float x ∈ v.numbers →
    Value.ofJson? (Value.number (.float x)).compact = some (.number (.float x))) : v.Encodable :=
  ⟨native.distinct, fun n hn => .inl (native.numbers (.int n) hn), floats⟩

end Value.Native

theorem Value.ofJson?_of_deep (deep : Json.maxDepth < v.depth) :
    Value.ofJson? v.compact = none := by
  rw [ofJson?_compact_eq, if_neg (Nat.not_le.mpr deep)]

namespace Literal

theorem parse_native (native : v.Native) : parse v.compact = .ok v := by
  rw [parse_eq_ok_iff_value? (Json.stands_compact v) (Json.unpaired_outline v)]
  exact Json.value?_outline native.distinct fun n hn => (native.numbers n hn).typed?

/-- A native value is read again from its compact text, at any depth. The strict reader gives up on
deep values, and on the others it has to give back the binary numbers. -/
theorem parse_compact (native : v.Native) : parse v.compact = .ok v ∧
    ((v.depth ≤ Json.maxDepth → ∀ x, .float x ∈ v.numbers →
        Value.ofJson? (Value.number (.float x)).compact = some (.number (.float x))) →
      parseJsonFirst v.compact = .ok v) ∧
    (Json.maxDepth < v.depth → Value.ofJson? v.compact = none) := by
  refine ⟨parse_native native, fun floats => ?_, Value.ofJson?_of_deep⟩
  rw [parseJsonFirst]
  by_cases shallow : v.depth ≤ Json.maxDepth
  · have strict : Value.ofJson? v.compact = some v :=
      (Value.ofJson?_compact_iff (native.encodable (floats shallow))).mpr ⟨shallow, rfl⟩
    rw [strict]
  · rw [Value.ofJson?_of_deep (Nat.not_le.mp shallow)]
    exact parse_native native

/-- Members out of the order of their names, escapes in a name, and numbers at the ends of their
kinds. -/
def mixed : Value :=
  .object [("z\"\n\x01\\", .array [.int (-9223372036854775808), .int 9223372036854775807,
      .number (.float ⟨true, 0, -1074⟩), .number (.float ⟨false, 9007199254740991, 971⟩)]),
    ("", .object []), ("é", .array [.string "//,]", .null, .bool false, .array []])]

/-- A value inside so many lists. -/
def buried (v : Value) : Nat → Value
  | 0 => v
  | n + 1 => .array [buried v n]

theorem depth_buried (v : Value) (n : Nat) : (buried v n).depth = v.depth + n := by
  induction n with
  | zero => rfl
  | succ n ih =>
    rw [buried, Value.depth, Value.itemDepth, Value.itemDepth, ih, Nat.max_zero]
    rfl

theorem native_buried (native : v.Native) (n : Nat) : (buried v n).Native := by
  induction n with
  | zero => exact native
  | succ n ih => exact .array (List.forall_mem_singleton.mpr ih)

theorem parse_compact_mixed : mixed.Native ∧ parse mixed.compact = .ok mixed ∧
    parseJsonFirst mixed.compact = .ok mixed ∧
    (buried mixed 200).Native ∧ Value.ofJson? (buried mixed 200).compact = none ∧
    parseJsonFirst (buried mixed 200).compact = .ok (buried mixed 200) := by
  have native : mixed.Native := by decide
  have read : ∀ n ∈ mixed.numbers, n.spelling.number? = some n := by decide +kernel
  have deep : Json.maxDepth < (buried mixed 200).depth := by
    rw [depth_buried]
    decide
  obtain ⟨lenient, first, -⟩ := parse_compact native
  obtain ⟨-, deepFirst, strict⟩ := parse_compact (native_buried native 200)
  exact ⟨native, lenient, first fun _ x hx => Value.ofJson?_number_iff.mpr (read _ hx),
    native_buried native 200, strict deep, deepFirst fun shallow => by omega⟩

/-! ## What is read at all -/

theorem native_keywords : ∀ word ∈ keywords, word.2.Native := by decide

mutual

theorem Spells.native {cs rest : List Char} {v : Value} : Spells cs v rest → v.Native
  | .keyword known _ => native_keywords _ known
  | .number (.mk _ _ value) =>
    ⟨.number _, List.forall_mem_singleton.mpr (Number.native_of_ofNumeral? value)⟩
  | .string _ => ⟨.string _, nofun⟩
  | .emptyArray _ => .array nofun
  | .array _ h => .array h.native
  | .emptyObject _ => ⟨.empty, nofun⟩
  | .object _ h collects => collects_iff.mp collects ▸ .ofPairs h.native

theorem SpellsItems.native {cs rest : List Char} {vs : List Value} :
    SpellsItems cs vs rest → ∀ v ∈ vs, v.Native
  | .last h _ | .trailing h _ _ => List.forall_mem_singleton.mpr h.native
  | .more h _ _ others => List.forall_mem_cons.mpr ⟨h.native, others.native⟩

theorem SpellsMember.native {cs rest : List Char} {m : String × Value} :
    SpellsMember cs m rest → m.2.Native
  | .mk _ _ _ h => h.native

theorem SpellsMembers.native {cs rest : List Char} {pairs : List (String × Value)} :
    SpellsMembers cs pairs rest → ∀ m ∈ pairs, m.2.Native
  | .last h _ | .trailing h _ _ => List.forall_mem_singleton.mpr h.native
  | .more h _ _ others => List.forall_mem_cons.mpr ⟨h.native, others.native⟩

end

theorem native_of_parse {s : String} (h : parse s = .ok v) : v.Native := by
  obtain ⟨_, spells, _⟩ := parse_eq_ok_iff.mp h
  exact spells.native

/-- No other values are given back, nor read from any text. -/
theorem parse_compact_iff : parse v.compact = .ok v ↔ v.Native := ⟨native_of_parse, parse_native⟩

end Literal

end CommandContract
