import CommandContract.Proofs.Json.Numeral
import CommandContract.Proofs.Json.Reading
import CommandContract.Proofs.Text.Trim

set_option autoImplicit false

/-!
# Compact text

The compact text of a value has an outline, the strict reader gives the value back, and it does so
exactly if no more containers stand in each other than may be open: `ofJson?_compact_iff`. What is
asked of the value is that no name stands twice in an object, that its integers have 64 bits, and
that each of its binary numbers is given back when it stands alone.
-/
namespace CommandContract

open Json (Spelling)

variable {v w : Value} {rest : List Char}

/-! ## Values -/

namespace Value

mutual

/-- How many containers stand in each other. -/
def depth : Value → Nat
  | array items => itemDepth items + 1
  | object ms => memberDepth ms + 1
  | null | bool _ | number _ | string _ => 0

def itemDepth : List Value → Nat
  | [] => 0
  | v :: vs => max (depth v) (itemDepth vs)

def memberDepth : List (String × Value) → Nat
  | [] => 0
  | (_, v) :: ms => max (depth v) (memberDepth ms)

end

mutual

/-- The numbers inside, the value itself included. -/
def numbers : Value → List Number
  | number n => [n]
  | array items => itemNumbers items
  | object ms => memberNumbers ms
  | null | bool _ | string _ => []

def itemNumbers : List Value → List Number
  | [] => []
  | v :: vs => numbers v ++ itemNumbers vs

def memberNumbers : List (String × Value) → List Number
  | [] => []
  | (_, v) :: ms => numbers v ++ memberNumbers ms

end

theorem memberDepth_le {ms : Members Value} {k : Nat} (h : ∀ m ∈ ms, m.2.depth ≤ k) :
    memberDepth ms ≤ k := by
  induction ms with
  | nil => exact Nat.zero_le k
  | cons m ms ih =>
    rw [List.forall_mem_cons] at h
    exact Nat.max_le.mpr ⟨h.1, ih h.2⟩

theorem mem_itemNumbers {n : Number} {vs : List Value} :
    n ∈ itemNumbers vs ↔ ∃ v ∈ vs, n ∈ v.numbers := by
  induction vs with
  | nil => simp [itemNumbers]
  | cons v vs ih => simp [itemNumbers, ih]

theorem mem_memberNumbers {n : Number} {ms : Members Value} :
    n ∈ memberNumbers ms ↔ ∃ m ∈ ms, n ∈ m.2.numbers := by
  induction ms with
  | nil => simp [memberNumbers]
  | cons m ms ih => simp [memberNumbers, ih]

/-- A value as JSON texts have them, the binary numbers of which the reader gives back. -/
structure Encodable (v : Value) : Prop where
  distinct : v.Distinct
  integers : ∀ n, .int n ∈ v.numbers → Number.isSigned n = true ∨ Number.isUnsigned n = true
  floats : ∀ x, .float x ∈ v.numbers →
    Value.ofJson? (Value.number (.float x)).compact = some (.number (.float x))

end Value

namespace Json

/-! ## Strings -/

theorem hexValue?_hexDigit {n : Nat} (h : n < 16) : hexValue? (hexDigit n) = some n := by
  revert h n
  decide

theorem escapeChar_of_printed {c : Char} (quote : c ≠ '"') (bare : c ≠ '\\')
    (printed : 0x20 ≤ c.toNat) : escapeChar c = [c] := by
  have other : ∀ d : Char, d.toNat < 0x20 → c ≠ d := by
    rintro d control rfl
    omega
  rw [escapeChar, if_neg quote, if_neg bare, if_neg (other _ (by decide)),
    if_neg (other _ (by decide)), if_neg (other _ (by decide)), if_neg (other _ (by decide)),
    if_neg (other _ (by decide)), if_neg (Nat.not_lt.mpr printed)]

theorem quoted_escapeChar (c : Char) {cs : List Char} {marks : List Mark}
    (h : Quoted cs marks rest) : Quoted (escapeChar c ++ cs) (.single c :: marks) rest := by
  unfold escapeChar
  -- seven characters have a letter
  iterate 7
    split
    · rename_i hc
      subst hc
      exact .letter rfl h
  split
  · have four : hexFour? ('0' :: '0' :: hexDigit (c.toNat / 16) :: hexDigit (c.toNat % 16) :: cs) =
        some (c.toNat, cs) := by
      have high := hexValue?_hexDigit (show c.toNat / 16 < 16 by omega)
      have low := hexValue?_hexDigit (show c.toNat % 16 < 16 by omega)
      have zero : hexValue? '0' = some 0 := rfl
      simp only [hexFour?, zero, high, low, Option.bind_eq_bind, Option.bind_some]
      exact congrArg (fun n => some (n, cs)) (by omega)
    have coded := Quoted.coded four (by omega) h
    rwa [Char.ofNat_toNat] at coded
  · rename_i other bare _ _ _ _ _ printed
    exact .plain other bare (Nat.not_lt.mp printed) h

theorem quoted_escape (cs : List Char) (rest : List Char) :
    Quoted (cs.flatMap escapeChar ++ '"' :: rest) (cs.map .single) rest := by
  induction cs with
  | nil => exact .close rest
  | cons c cs ih =>
    rw [List.flatMap_cons, List.append_assoc]
    exact quoted_escapeChar c ih

theorem textOf_single (s : String) : textOf (s.toList.map .single) = s := by
  have chars : (s.toList.map Mark.single).map Mark.char = s.toList := by
    rw [List.map_map]
    exact List.map_id _
  rw [textOf, chars, String.ofList_toList]

end Json

/-! ## Lists of items -/

namespace Json

theorem writeItems_more (v w : Value) (vs : List Value) :
    writeItems (v :: w :: vs) = write v ++ ',' :: writeItems (w :: vs) := by
  rw [writeItems]
  exact nofun

theorem writeMembers_more (key : String) (v : Value) (m : String × Value)
    (ms : List (String × Value)) : writeMembers ((key, v) :: m :: ms) =
      quoted key ++ ':' :: (write v ++ ',' :: writeMembers (m :: ms)) := by
  rw [writeMembers]
  exact nofun

end Json

/-! ## Outlines -/

namespace Value

open Json (Mark Outline)

mutual

/-- The outline of the compact text. -/
def outline : Value → Outline
  | null => .null
  | bool b => .bool b
  | number n => .numeral n.spelling
  | string s => .string (s.toList.map .single)
  | array items => .array (itemOutlines items)
  | object ms => .object (memberOutlines ms)

def itemOutlines : List Value → List Outline
  | [] => []
  | v :: vs => outline v :: itemOutlines vs

def memberOutlines : List (String × Value) → List (List Mark × Outline)
  | [] => []
  | (key, v) :: ms => (key.toList.map .single, outline v) :: memberOutlines ms

end

end Value

namespace Json

mutual

theorem depth_outline : ∀ v : Value, v.outline.depth = v.depth
  | .null | .bool _ | .number _ | .string _ => rfl
  | .array items => congrArg (· + 1) (depth_itemOutlines items)
  | .object ms => congrArg (· + 1) (depth_memberOutlines ms)

theorem depth_itemOutlines : ∀ vs : List Value,
    Outline.itemDepth (Value.itemOutlines vs) = Value.itemDepth vs
  | [] => rfl
  | v :: vs => congrArg₂ max (depth_outline v) (depth_itemOutlines vs)

theorem depth_memberOutlines : ∀ ms : List (String × Value),
    Outline.memberDepth (Value.memberOutlines ms) = Value.memberDepth ms
  | [] => rfl
  | (_, v) :: ms => congrArg₂ max (depth_outline v) (depth_memberOutlines ms)

end

theorem unpaired_single (cs : List Char) : Unpaired (cs.map .single) := by
  intro m hm
  obtain ⟨c, _, rfl⟩ := List.mem_map.mp hm
  exact ⟨c, rfl⟩

mutual

/-- The printer escapes no surrogates. -/
theorem unpaired_outline : ∀ v : Value, Unpaired v.outline.marks
  | .null | .bool _ | .number _ => nofun
  | .string s => unpaired_single s.toList
  | .array items => unpaired_itemOutlines items
  | .object ms => unpaired_memberOutlines ms

theorem unpaired_itemOutlines : ∀ vs : List Value,
    Unpaired (Outline.itemMarks (Value.itemOutlines vs))
  | [] => nofun
  | v :: vs => List.forall_mem_append.mpr ⟨unpaired_outline v, unpaired_itemOutlines vs⟩

theorem unpaired_memberOutlines : ∀ ms : List (String × Value),
    Unpaired (Outline.memberMarks (Value.memberOutlines ms))
  | [] => nofun
  | (key, v) :: ms => List.forall_mem_append.mpr ⟨unpaired_single key.toList,
    List.forall_mem_append.mpr ⟨unpaired_outline v, unpaired_memberOutlines ms⟩⟩

end

mutual

theorem numerals_outline : ∀ v : Value, v.outline.numerals = v.numbers.map Number.spelling
  | .null | .bool _ | .number _ | .string _ => rfl
  | .array items => numerals_itemOutlines items
  | .object ms => numerals_memberOutlines ms

theorem numerals_itemOutlines : ∀ vs : List Value,
    Outline.itemNumerals (Value.itemOutlines vs) = (Value.itemNumbers vs).map Number.spelling
  | [] => rfl
  | v :: vs => by
    rw [Value.itemNumbers, List.map_append, ← numerals_outline v, ← numerals_itemOutlines vs]
    rfl

theorem numerals_memberOutlines : ∀ ms : List (String × Value),
    Outline.memberNumerals (Value.memberOutlines ms) = (Value.memberNumbers ms).map Number.spelling
  | [] => rfl
  | (_, v) :: ms => by
    rw [Value.memberNumbers, List.map_append, ← numerals_outline v, ← numerals_memberOutlines ms]
    rfl

end

section Meaning

variable {number? : Spelling → Option Number}

mutual

/-- An outline means the value that it is the outline of, if names are distinct and numbers are read
as they are spelled. -/
theorem value?_outline : ∀ {v : Value}, v.Distinct →
    (∀ n ∈ v.numbers, number? n.spelling = some n) → v.outline.value? number? = some v
  | .null, _, _ => rfl
  | .bool _, _, _ => rfl
  | .number n, _, h => by rw [Value.outline, Outline.value?, h n List.mem_cons_self]; rfl
  | .string s, _, _ => by rw [Value.outline, Outline.value?, textOf_single]
  | .array items, distinct, h => by
    have inside : ∀ v ∈ items, v.Distinct := by
      cases distinct with
      | array inside => exact inside
    rw [Value.outline, Outline.value?, itemValues?_outlines inside h]
    rfl
  | .object ms, distinct, h => by
    rw [Value.outline, Outline.value?, memberValues?_outlines (fun m hm => distinct.inside hm) h,
      Option.map_some, Members.ofPairs_of_nodup distinct.once]

theorem itemValues?_outlines : ∀ {vs : List Value}, (∀ v ∈ vs, v.Distinct) →
    (∀ n ∈ Value.itemNumbers vs, number? n.spelling = some n) →
      Outline.itemValues? number? (Value.itemOutlines vs) = some vs
  | [], _, _ => rfl
  | v :: vs, distinct, h => by
    obtain ⟨first, others⟩ := List.forall_mem_cons.mp distinct
    obtain ⟨here, there⟩ := List.forall_mem_append.mp h
    exact Outline.itemValues?_cons_iff.mpr
      ⟨v, vs, value?_outline first here, itemValues?_outlines others there, rfl⟩

theorem memberValues?_outlines : ∀ {ms : List (String × Value)}, (∀ m ∈ ms, m.2.Distinct) →
    (∀ n ∈ Value.memberNumbers ms, number? n.spelling = some n) →
      Outline.memberValues? number? (Value.memberOutlines ms) = some ms
  | [], _, _ => rfl
  | (key, v) :: ms, distinct, h => by
    obtain ⟨first, others⟩ := List.forall_mem_cons.mp distinct
    obtain ⟨here, there⟩ := List.forall_mem_append.mp h
    refine Outline.memberValues?_cons_iff.mpr
      ⟨v, ms, value?_outline first here, memberValues?_outlines others there, ?_⟩
    rw [textOf_single]

end

end Meaning

mutual

/-- The compact text of a value has its outline, wherever it stands. -/
theorem spells_write : ∀ (v : Value) (rest : List Char), Spells (write v ++ rest) v.outline rest
  | .null, rest => .null rest
  | .bool true, rest => .yes rest
  | .bool false, rest => .no rest
  | .number n, rest => .numeral n.valid_spelling (by rw [n.text_spelling, write])
  | .string s, rest => by
    have quoted := quoted_escape s.toList rest
    refine Spells.string ?_
    simpa using quoted
  | .array [], rest => .emptyArray (.stay _)
  | .array (v :: vs), rest => .array (.stay _) (spellsItems_write (v :: vs) nofun rest)
  | .object [], rest => .emptyObject (.stay _)
  | .object (m :: ms), rest => .object (.stay _) (spellsMembers_write (m :: ms) nofun rest)

theorem spellsItems_write : ∀ vs : List Value, vs ≠ [] → ∀ rest : List Char,
    SpellsItems (writeItems vs ++ rest) (Value.itemOutlines vs) rest
  | [], ne, _ => absurd rfl ne
  | [v], _, rest => by
    have first := spells_write v (']' :: rest)
    refine .last ?_ (.stay _)
    simpa [writeItems] using first
  | v :: w :: vs, _, rest => by
    have first := spells_write v (',' :: (writeItems (w :: vs) ++ rest))
    refine .more ?_ (.stay _) (.stay _) (spellsItems_write (w :: vs) nofun rest)
    simpa [writeItems_more] using first

theorem spellsMembers_write : ∀ ms : List (String × Value), ms ≠ [] → ∀ rest : List Char,
    SpellsMembers (writeMembers ms ++ rest) (Value.memberOutlines ms) rest
  | [], ne, _ => absurd rfl ne
  | [(key, v)], _, rest => by
    have first := spells_write v ('\x7d' :: rest)
    have name := quoted_escape key.toList (':' :: (write v ++ '\x7d' :: rest))
    refine .last (.mk ?_ (.stay _) (.stay _) first) (.stay _)
    simpa [writeMembers, quoted] using name
  | (key, v) :: m :: ms, _, rest => by
    have first := spells_write v (',' :: (writeMembers (m :: ms) ++ rest))
    have name := quoted_escape key.toList
      (':' :: (write v ++ ',' :: (writeMembers (m :: ms) ++ rest)))
    refine .more (.mk ?_ (.stay _) (.stay _) first) (.stay _) (.stay _)
      (spellsMembers_write (m :: ms) nofun rest)
    simpa [writeMembers_more, quoted] using name

end

theorem stands_compact (v : Value) : Stands v.compact.toList v.outline [] := by
  have whole := spells_write v []
  rw [List.append_nil] at whole
  rw [Value.compact, String.toList_ofList]
  exact .mk (.stay _) whole (.stay _)

end Json

/-! ## The ends of a text -/

theorem exists_writeItems : ∀ vs : List Value, ∃ cs, Json.writeItems vs = cs ++ [']']
  | [] => ⟨[], rfl⟩
  | [v] => ⟨Json.write v, rfl⟩
  | v :: w :: vs => by
    obtain ⟨cs, h⟩ := exists_writeItems (w :: vs)
    exact ⟨Json.write v ++ ',' :: cs, by rw [Json.writeItems_more, h]; simp⟩

theorem exists_writeMembers : ∀ ms : List (String × Value),
    ∃ cs, Json.writeMembers ms = cs ++ ['\x7d']
  | [] => ⟨[], rfl⟩
  | [(key, v)] => ⟨Json.quoted key ++ ':' :: Json.write v, by simp [Json.writeMembers]⟩
  | (key, v) :: m :: ms => by
    obtain ⟨cs, h⟩ := exists_writeMembers (m :: ms)
    exact ⟨Json.quoted key ++ ':' :: (Json.write v ++ ',' :: cs),
      by rw [Json.writeMembers_more, h]; simp⟩

/-- There is no blank at the ends of a compact text. -/
theorem Value.tight_compact (v : Value) : Text.Tight v.compact.toList := by
  rw [Value.compact, String.toList_ofList]
  cases v with
  | null => exact Text.tight_between (by decide) (by decide) ['u', 'l']
  | bool b =>
    cases b with
    | true => exact Text.tight_between (by decide) (by decide) ['r', 'u']
    | false => exact Text.tight_between (by decide) (by decide) ['a', 'l', 's']
  | number n => exact n.looksNumeral_text.tight
  | string s => exact Text.tight_between (by decide) (by decide) _
  | array items =>
    obtain ⟨cs, h⟩ := exists_writeItems items
    rw [Json.write, h]
    exact Text.tight_between (by decide) (by decide) cs
  | object ms =>
    obtain ⟨cs, h⟩ := exists_writeMembers ms
    rw [Json.write, h]
    exact Text.tight_between (by decide) (by decide) cs

/-! ## Giving back what was printed -/

namespace Value

/-- What the strict reader makes of a compact text. -/
theorem ofJson?_compact : ofJson? v.compact = some w ↔
    v.depth ≤ Json.maxDepth ∧ v.outline.value? Spelling.number? = some w := by
  rw [Json.ofJson?_eq_some_iff (Json.stands_compact v), Json.depth_outline]

theorem ofJson?_number (n : Number) :
    ofJson? (number n).compact = n.spelling.number?.map .number :=
  Option.ext fun _ => ofJson?_compact.trans (and_iff_right (Nat.zero_le _))

theorem ofJson?_number_iff {n : Number} :
    ofJson? (number n).compact = some (number n) ↔ n.spelling.number? = some n := by
  rw [ofJson?_number, Option.map_eq_some_iff]
  exact ⟨fun ⟨_, read, same⟩ => read.trans (congrArg some (Value.number.inj same)),
    fun read => ⟨n, read, rfl⟩⟩

theorem Encodable.number? (h : v.Encodable) :
    ∀ n ∈ v.numbers, n.spelling.number? = some n := by
  intro n hn
  cases n with
  | int n => exact Json.number?_ofInteger (h.integers n hn)
  | float x => exact ofJson?_number_iff.mp (h.floats x hn)

/-- The strict reader gives a value back from its compact text, and no other value, if no more
containers stand in each other than may be open; else it takes the text for nothing. -/
theorem ofJson?_compact_iff (h : v.Encodable) :
    ofJson? v.compact = some w ↔ v.depth ≤ Json.maxDepth ∧ w = v := by
  rw [ofJson?_compact, Json.value?_outline h.distinct h.number?, Option.some.injEq, eq_comm]

end Value

end CommandContract
