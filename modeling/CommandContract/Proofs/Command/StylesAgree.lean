import CommandContract.Proofs.Argument.Token
import CommandContract.Proofs.Command.NamedArgument

set_option autoImplicit false

/-!
# Named arguments and objects

An argument may be written as a name with the compact text of a value, or as an object with that one
member. `Call.readLine_named` says that both lines are read as the same call. A list or an object is
read by the same readers in either line, a number on its own is not: as an argument it is a number
typed by hand, in an object it is a number of JSON. `Value.Interchangeable` leaves out the values on
which these differ.
-/
namespace CommandContract

open Json (Spelling)

variable {v w : Value} {k : String}

/-! ## What a literal of compact text is -/

theorem ofJson?_compact_eq (v : Value) : Value.ofJson? v.compact =
    if v.depth ≤ Json.maxDepth then v.outline.value? Spelling.number? else none := by
  refine Option.ext fun w => ?_
  rw [Value.ofJson?_compact]
  split <;> simp_all

theorem parseJsonFirst_compact : Literal.parseJsonFirst v.compact = .ok w ↔
    (Value.ofJson? v.compact).or (v.outline.value? Spelling.typed?) = some w := by
  have lenient := Literal.parse_eq_ok_iff_value? (w := w) (Json.stands_compact v)
    (Json.unpaired_outline v)
  rw [Literal.parseJsonFirst]
  cases Value.ofJson? v.compact with
  | some u => simp
  | none => simpa using lenient

theorem value?_single (number? : Spelling → Option Number) (k : String) (v : Value) :
    (Value.object [(k, v)]).outline.value? number? =
      (v.outline.value? number?).map fun w => .object [(k, w)] := by
  have name : Json.textOf (k.toList.map .single) = k := Json.textOf_single k
  simp only [Value.outline, Value.memberOutlines, Json.Outline.value?, Json.Outline.memberValues?]
  cases v.outline.value? number? with
  | none => rfl
  | some w =>
    rw [name]
    rfl

/-- What an object with one member is read as. -/
theorem parseJsonFirst_single
    (h : (if v.depth + 1 ≤ Json.maxDepth then v.outline.value? Spelling.number? else none).or
      (v.outline.value? Spelling.typed?) = some w) :
    Literal.parseJsonFirst (Value.object [(k, v)]).compact = .ok (.object [(k, w)]) := by
  have depth : (Value.object [(k, v)]).depth = v.depth + 1 :=
    congrArg (· + 1) (Nat.max_zero v.depth)
  rw [parseJsonFirst_compact, ofJson?_compact_eq, depth, value?_single, value?_single]
  have inside := congrArg (Option.map fun w => Value.object [(k, w)]) h
  rw [Option.map_or] at inside
  refine Eq.trans ?_ inside
  split <;> rfl

/-! ## Values on which the readers agree -/

/-- The strict reader takes the text of a number as it is taken when it is typed. -/
def Number.Unambiguous (n : Number) : Prop :=
  Value.ofJson? (Value.number n).compact = (Number.ofNumeral? n.text).map .number

/-- A value on which the readers of the two styles cannot differ. -/
structure Value.Interchangeable (v : Value) : Prop where
  string : ∀ s, v = .string s → Argument.Typeable s.toList
  number : ∀ n, v = .number n → n.Unambiguous
  /-- With one more container around it the strict reader refuses the text. -/
  deepest : v.depth = Json.maxDepth → ∀ n ∈ v.numbers, n.Unambiguous

namespace Number

variable {n : Number}

theorem unambiguous_iff : n.Unambiguous ↔ n.spelling.number? = n.spelling.typed? := by
  rw [Unambiguous, Value.ofJson?_number, ofNumeral?_text]
  exact (Option.map_injective fun _ _ he => Value.number.inj he).eq_iff

/-- An integer is taken alike if it fits 63 bits and a sign, and only then. -/
theorem unambiguous_int_iff {i : Int} (h : (int i).Held) :
    (int i).Unambiguous ↔ isSigned i = true := by
  rw [unambiguous_iff, spelling, Json.number?_ofInteger h]
  constructor
  · intro same
    by_contra large
    have typed : (Json.ofInteger i).typed? =
        (Json.ofInteger i).decimal.toBinary?.map .float := by
      rw [Spelling.typed?, Json.integer?_ofInteger,
        Option.filter_some_neg (Bool.eq_false_of_not_eq_true large)]
    rw [typed] at same
    cases binary : (Json.ofInteger i).decimal.toBinary? with
    | none => rw [binary] at same; cases same
    | some x => rw [binary] at same; cases same
  · intro signed
    rw [Json.typed?_ofInteger signed]

end Number

namespace Call

/-! ## Both styles -/

theorem readings_eq (h : v.depth = Json.maxDepth → ∀ n ∈ v.numbers, n.Unambiguous) :
    (if v.depth + 1 ≤ Json.maxDepth then v.outline.value? Spelling.number? else none).or
        (v.outline.value? Spelling.typed?) =
      (Value.ofJson? v.compact).or (v.outline.value? Spelling.typed?) := by
  rw [ofJson?_compact_eq]
  by_cases deepest : v.depth = Json.maxDepth
  · have one : v.outline.value? Spelling.number? = v.outline.value? Spelling.typed? := by
      refine Json.Outline.value?_congr fun t ht => ?_
      rw [Json.numerals_outline] at ht
      obtain ⟨n, hn, rfl⟩ := List.mem_map.mp ht
      exact Number.unambiguous_iff.mp (h deepest n hn)
    rw [if_neg (by omega), if_pos (Nat.le_of_eq deepest), one, Option.or_self, Option.none_or]
  · have same : v.depth + 1 ≤ Json.maxDepth ↔ v.depth ≤ Json.maxDepth := by omega
    simp only [same]

/-- The value of an argument, in either style. -/
def Reads (k : String) (v w : Value) : Prop :=
  CommandContract.Argument.tokenValue v.compact.toList = w ∧
    Literal.parseJsonFirst (Value.object [(k, v)]).compact = .ok (.object [(k, w)])

theorem reads_container {c : Char} {cs : List Char} (held : ∀ n ∈ v.numbers, n.Held)
    (deepest : v.depth = Json.maxDepth → ∀ n ∈ v.numbers, n.Unambiguous)
    (bracket : c = '[' ∨ c = '\x7b') (text : v.compact.toList = c :: cs) : ∃ w, Reads k v w := by
  obtain ⟨u, typed⟩ : ∃ u, v.outline.value? Spelling.typed? = some u := by
    refine Json.Outline.exists_value fun t ht => ?_
    rw [Json.numerals_outline] at ht
    obtain ⟨n, hn, rfl⟩ := List.mem_map.mp ht
    exact (held n hn).typed?
  obtain ⟨w, read⟩ : ∃ w, (Value.ofJson? v.compact).or (v.outline.value? Spelling.typed?) =
      some w := by
    rw [typed]
    cases Value.ofJson? v.compact with
    | none => exact ⟨u, rfl⟩
    | some w => exact ⟨w, rfl⟩
  refine ⟨w, ?_, parseJsonFirst_single (readings_eq deepest ▸ read)⟩
  exact Argument.tokenValue_of_bracket bracket text (parseJsonFirst_compact.mpr read)

theorem reads_number {n : Number} (held : n.Held) (same : n.Unambiguous) :
    ∃ w, Reads k (.number n) w := by
  obtain ⟨m, typed⟩ := held.typed?
  have strict : n.spelling.number? = some m := (Number.unambiguous_iff.mp same).trans typed
  have inside : (Value.number n).outline.value? Spelling.number? = some (.number m) := by
    rw [Value.outline, Json.Outline.value?, strict]
    rfl
  have shallow : (Value.number n).depth + 1 ≤ Json.maxDepth := Nat.le_of_ble_eq_true rfl
  rw [← n.ofNumeral?_text] at typed
  refine ⟨.number m, Argument.tokenValue_number typed, parseJsonFirst_single ?_⟩
  rw [if_pos shallow, inside, Option.some_or]

theorem reads_string {s : String} (typeable : Argument.Typeable s.toList) :
    Reads k (.string s) (.string s) := by
  have inside : (Value.string s).outline.value? Spelling.number? = some (.string s) := by
    rw [Value.outline, Json.Outline.value?, Json.textOf_single]
  have shallow : (Value.string s).depth + 1 ≤ Json.maxDepth := Nat.le_of_ble_eq_true rfl
  refine ⟨Argument.tokenValue_string typeable, parseJsonFirst_single ?_⟩
  rw [if_pos shallow, inside, Option.some_or]

theorem exists_reads (held : ∀ n ∈ v.numbers, n.Held) (same : v.Interchangeable) :
    ∃ w, Reads k v w := by
  cases v with
  | null => exact ⟨.null, rfl, parseJsonFirst_single rfl⟩
  | bool b => cases b <;> exact ⟨_, rfl, parseJsonFirst_single rfl⟩
  | number n => exact reads_number (held n List.mem_cons_self) (same.number n rfl)
  | string s => exact ⟨_, reads_string (same.string s rfl)⟩
  | array items => exact reads_container held same.deepest (.inl rfl) String.toList_ofList
  | object ms => exact reads_container held same.deepest (.inr rfl) String.toList_ofList

section Lines

variable {spec : CommandSpec} {m : Manifest} {c : String} (tree : FileTree)
  (known : m.get? c = some spec) (ident : isName c.toList = true) (key : isKey k.toList = true)

include known ident key

theorem readLine_object
    (literal : Literal.parseJsonFirst (Value.object [(k, v)]).compact = .ok (.object [(k, w)])) :
    readLine tree m (c ++ "(\x7b\"" ++ k ++ "\":" ++ v.compact ++ "\x7d)") =
      .ok ⟨spec.name, [(k, w)]⟩ := by
  have line : c ++ "(\x7b\"" ++ k ++ "\":" ++ v.compact ++ "\x7d)" =
      String.ofList (c.toList ++ '(' :: ((Value.object [(k, v)]).compact.toList ++ ')' :: [])) := by
    rw [← String.toList_inj, Value.compact, Value.compact]
    simp [Json.write, Json.writeMembers, quoted_key key]
  have tight := (Value.object [(k, v)]).tight_compact
  have nothing : ∀ b ∈ ([] : List Char), Text.isBlank b = true := List.forall_mem_nil _
  rw [line, readLine_parenthesized known ident (Text.padded_self c.toList) _ nothing,
    Text.trim_of_tight tight, bodyArguments_object tight.ne_nil literal]
  rfl

/-- A value under a name is one argument in either style, and the same one. -/
theorem readLine_named (declared : k ∈ Members.keys spec.parameters)
    (held : ∀ n ∈ v.numbers, n.Held) (same : v.Interchangeable) :
    ∃ w, readLine tree m (c ++ "(" ++ k ++ "=" ++ v.compact ++ ")") =
        .ok ⟨spec.name, [(k, w)]⟩ ∧
      readLine tree m (c ++ "(\x7b\"" ++ k ++ "\":" ++ v.compact ++ "\x7d)") =
        .ok ⟨spec.name, [(k, w)]⟩ := by
  obtain ⟨w, token, literal⟩ := exists_reads held same
  refine ⟨w, ?_, readLine_object tree known ident key literal⟩
  rw [readLine_function tree known ident key declared, token]

end Lines

def telephone : Manifest :=
  (Manifest.empty "table").withCommand
    ((CommandSpec.ofName "dial").withParameter "n" (ParameterSpec.ofType "any"))

/-- A list with an integer beyond 63 bits and with separators in a string. -/
def dialled : Value := .array [.int 18446744073709551615, .string "a=),"]

theorem readLine_named_telephone : ∃ spec w, telephone.get? "dial" = some spec ∧
    isName "dial".toList = true ∧ isKey "n".toList = true ∧
    "n" ∈ Members.keys spec.parameters ∧ (∀ n ∈ dialled.numbers, n.Held) ∧
    dialled.Interchangeable ∧
    readLine ⟨[], []⟩ telephone "dial(n=[18446744073709551615,\"a=),\"])" =
      .ok ⟨spec.name, [("n", w)]⟩ ∧
    readLine ⟨[], []⟩ telephone "dial(\x7b\"n\":[18446744073709551615,\"a=),\"]\x7d)" =
      .ok ⟨spec.name, [("n", w)]⟩ := by
  have ident : isName "dial".toList = true := by decide
  have key : isKey "n".toList = true := by decide
  obtain ⟨spec, known, declared⟩ : ∃ spec, telephone.get? "dial" = some spec ∧
      "n" ∈ Members.keys spec.parameters := ⟨_, rfl, by decide⟩
  have held : ∀ n ∈ dialled.numbers, n.Held := List.forall_mem_singleton.mpr (.inr (by decide))
  have same : dialled.Interchangeable :=
    ⟨nofun, nofun, fun deepest => absurd deepest (by decide)⟩
  have text : dialled.compact = "[18446744073709551615,\"a=),\"]" := by decide +kernel
  obtain ⟨w, function, object⟩ := readLine_named ⟨[], []⟩ known ident key declared held same
  rw [text] at function object
  exact ⟨spec, w, known, ident, key, declared, held, same, function, object⟩

/-- An integer beyond 63 bits is a binary number in the one style and an integer in the other. -/
theorem styles_differ : ¬ ∀ (tree : FileTree) (m : Manifest) (c : String) (spec : CommandSpec)
    (k : String) (v : Value), m.get? c = some spec → k ∈ Members.keys spec.parameters →
      isKey k.toList = true → (∀ n ∈ v.numbers, n.Held) →
      ∃ args, readLine tree m (c ++ "(" ++ k ++ "=" ++ v.compact ++ ")") = .ok ⟨spec.name, args⟩ ∧
        readLine tree m (c ++ "(\x7b\"" ++ k ++ "\":" ++ v.compact ++ "\x7d)") =
          .ok ⟨spec.name, args⟩ := by
  intro same
  have held : (Number.int 18446744073709551615).Held := .inr (by decide)
  have ident : isName "dial".toList = true := by decide
  have key : isKey "n".toList = true := by decide
  obtain ⟨spec, known, declared⟩ : ∃ spec, telephone.get? "dial" = some spec ∧
      "n" ∈ Members.keys spec.parameters := ⟨_, rfl, by decide⟩
  obtain ⟨args, function, object⟩ := same ⟨[], []⟩ telephone "dial" spec "n"
    (.int 18446744073709551615) known declared key (List.forall_mem_singleton.mpr held)
  obtain ⟨x, typed⟩ : ∃ x, Number.ofNumeral? (Number.int 18446744073709551615).text =
      some (.float x) := ⟨_, by rfl⟩
  have strict : (Value.int 18446744073709551615).outline.value? Spelling.number? =
      some (.int 18446744073709551615) := by
    rw [Value.int, Value.outline, Json.Outline.value?, Number.spelling, Json.number?_ofInteger held]
    rfl
  have literal : Literal.parseJsonFirst (Value.object [("n", .int 18446744073709551615)]).compact =
      .ok (.object [("n", .int 18446744073709551615)]) := by
    refine parseJsonFirst_single ?_
    rw [strict]
    rfl
  rw [readLine_function _ known ident key declared] at function
  rw [readLine_object _ known ident key literal, ← function] at object
  simp [Value.int, Argument.tokenValue_number typed] at object

end Call

end CommandContract
