import CommandContract.Proofs.Json.Distinct
import CommandContract.Proofs.Json.Spelling

set_option autoImplicit false

/-!
# The grammar of JSON

What a JSON text looks like, said without a reader. A text has an outline, in which numerals and the
characters of strings stand as they are written; what the outline means depends only on how numerals
are read. Every text that the strict reader takes has an outline that means what was read:
`Json.exists_outline`.
-/
namespace CommandContract.Json

open Text (Skips)

/-! ## Outlines -/

/-- A character of a string: one that is written or escaped alone, or a pair of escaped
surrogates. -/
inductive Mark where
  | single (c : Char)
  | pair (high low : Nat)

def Mark.char : Mark → Char
  | single c => c
  | pair high low => Char.ofNat (0x10000 + (high - 0xD800) * 0x400 + (low - 0xDC00))

def textOf (marks : List Mark) : String := String.ofList (marks.map Mark.char)

inductive Outline where
  | null
  | bool (b : Bool)
  | numeral (t : Spelling)
  | string (marks : List Mark)
  | array (items : List Outline)
  | object (members : List (List Mark × Outline))

namespace Outline

mutual

/-- The value of an outline, given how numerals are read. -/
def value? (number? : Spelling → Option Number) : Outline → Option Value
  | null => some .null
  | bool b => some (.bool b)
  | numeral t => (number? t).map .number
  | string marks => some (.string (textOf marks))
  | array items => (itemValues? number? items).map .array
  | object ms => (memberValues? number? ms).map fun pairs => .object (Members.ofPairs pairs)

def itemValues? (number? : Spelling → Option Number) : List Outline → Option (List Value)
  | [] => some []
  | o :: os => do
    let v ← value? number? o
    let vs ← itemValues? number? os
    some (v :: vs)

def memberValues? (number? : Spelling → Option Number) :
    List (List Mark × Outline) → Option (List (String × Value))
  | [] => some []
  | (name, o) :: ms => do
    let v ← value? number? o
    let pairs ← memberValues? number? ms
    some ((textOf name, v) :: pairs)

end

theorem itemValues?_cons_iff {number? : Spelling → Option Number} {o : Outline}
    {os : List Outline} {vs : List Value} : itemValues? number? (o :: os) = some vs ↔
      ∃ v ws, o.value? number? = some v ∧ itemValues? number? os = some ws ∧ vs = v :: ws := by
  simp only [itemValues?, Option.bind_eq_bind, Option.bind_eq_some_iff, Option.some.injEq]
  constructor
  · rintro ⟨v, hv, ws, hws, rfl⟩
    exact ⟨v, ws, hv, hws, rfl⟩
  · rintro ⟨v, ws, hv, hws, rfl⟩
    exact ⟨v, hv, ws, hws, rfl⟩

theorem memberValues?_cons_iff {number? : Spelling → Option Number} {m : List Mark × Outline}
    {ms : List (List Mark × Outline)} {pairs : List (String × Value)} :
    memberValues? number? (m :: ms) = some pairs ↔
      ∃ v others, m.2.value? number? = some v ∧ memberValues? number? ms = some others ∧
        pairs = (textOf m.1, v) :: others := by
  simp only [memberValues?, Option.bind_eq_bind, Option.bind_eq_some_iff, Option.some.injEq]
  constructor
  · rintro ⟨v, hv, others, ho, rfl⟩
    exact ⟨v, others, hv, ho, rfl⟩
  · rintro ⟨v, others, hv, ho, rfl⟩
    exact ⟨v, hv, others, ho, rfl⟩

mutual

/-- The numerals of an outline. -/
def numerals : Outline → List Spelling
  | numeral t => [t]
  | array items => itemNumerals items
  | object ms => memberNumerals ms
  | null | bool _ | string _ => []

def itemNumerals : List Outline → List Spelling
  | [] => []
  | o :: os => numerals o ++ itemNumerals os

def memberNumerals : List (List Mark × Outline) → List Spelling
  | [] => []
  | (_, o) :: ms => numerals o ++ memberNumerals ms

end

section Congr

variable {number? typed? : Spelling → Option Number}

mutual

/-- Only how its own numerals are read matters for the value of an outline. -/
theorem value?_congr : ∀ {o : Outline}, (∀ t ∈ o.numerals, number? t = typed? t) →
    o.value? number? = o.value? typed?
  | null, _ => rfl
  | bool _, _ => rfl
  | numeral t, h => by rw [value?, value?, h t List.mem_cons_self]
  | string _, _ => rfl
  | array _, h => by rw [value?, value?, itemValues?_congr h]
  | object _, h => by rw [value?, value?, memberValues?_congr h]

theorem itemValues?_congr : ∀ {os : List Outline}, (∀ t ∈ itemNumerals os, number? t = typed? t) →
    itemValues? number? os = itemValues? typed? os
  | [], _ => rfl
  | o :: os, h => by
    obtain ⟨here, there⟩ := List.forall_mem_append.mp h
    rw [itemValues?, itemValues?, value?_congr here, itemValues?_congr there]

theorem memberValues?_congr : ∀ {ms : List (List Mark × Outline)},
    (∀ t ∈ memberNumerals ms, number? t = typed? t) →
      memberValues? number? ms = memberValues? typed? ms
  | [], _ => rfl
  | (name, o) :: ms, h => by
    obtain ⟨here, there⟩ := List.forall_mem_append.mp h
    rw [memberValues?, memberValues?, value?_congr here, memberValues?_congr there]

end

mutual

/-- An outline has a value if its numerals have. -/
theorem exists_value : ∀ {o : Outline}, (∀ t ∈ o.numerals, ∃ n, number? t = some n) →
    ∃ v, o.value? number? = some v
  | null, _ => ⟨.null, rfl⟩
  | bool b, _ => ⟨.bool b, rfl⟩
  | numeral t, h => by
    obtain ⟨n, hn⟩ := h t List.mem_cons_self
    exact ⟨.number n, by rw [value?, hn]; rfl⟩
  | string marks, _ => ⟨.string (textOf marks), rfl⟩
  | array _, h => by
    obtain ⟨vs, hv⟩ := exists_itemValues h
    exact ⟨.array vs, by rw [value?, hv]; rfl⟩
  | object _, h => by
    obtain ⟨pairs, hp⟩ := exists_memberValues h
    exact ⟨.object (Members.ofPairs pairs), by rw [value?, hp]; rfl⟩

theorem exists_itemValues : ∀ {os : List Outline},
    (∀ t ∈ itemNumerals os, ∃ n, number? t = some n) → ∃ vs, itemValues? number? os = some vs
  | [], _ => ⟨[], rfl⟩
  | _ :: _, h => by
    obtain ⟨here, there⟩ := List.forall_mem_append.mp h
    obtain ⟨v, hv⟩ := exists_value here
    obtain ⟨vs, hvs⟩ := exists_itemValues there
    exact ⟨v :: vs, itemValues?_cons_iff.mpr ⟨v, vs, hv, hvs, rfl⟩⟩

theorem exists_memberValues : ∀ {ms : List (List Mark × Outline)},
    (∀ t ∈ memberNumerals ms, ∃ n, number? t = some n) →
      ∃ pairs, memberValues? number? ms = some pairs
  | [], _ => ⟨[], rfl⟩
  | (name, _) :: _, h => by
    obtain ⟨here, there⟩ := List.forall_mem_append.mp h
    obtain ⟨v, hv⟩ := exists_value here
    obtain ⟨pairs, hp⟩ := exists_memberValues there
    exact ⟨(textOf name, v) :: pairs, memberValues?_cons_iff.mpr ⟨v, pairs, hv, hp, rfl⟩⟩

end

end Congr

mutual

/-- The characters of the strings and names of an outline. -/
def marks : Outline → List Mark
  | string marks => marks
  | array items => itemMarks items
  | object ms => memberMarks ms
  | null | bool _ | numeral _ => []

def itemMarks : List Outline → List Mark
  | [] => []
  | o :: os => marks o ++ itemMarks os

def memberMarks : List (List Mark × Outline) → List Mark
  | [] => []
  | (name, o) :: ms => name ++ (marks o ++ memberMarks ms)

end

end Outline

/-- Without escaped surrogates. -/
def Unpaired (marks : List Mark) : Prop := ∀ m ∈ marks, ∃ c, m = .single c

/-! ## Texts -/

abbrev Spaces : List Char → List Char → Prop := Skips isSpace

/-- The characters of a string behind its opening quote, up to the closing one. -/
inductive Quoted : List Char → List Mark → List Char → Prop
  | close (rest : List Char) : Quoted ('"' :: rest) [] rest
  | plain {c : Char} {cs rest : List Char} {marks : List Mark} (other : c ≠ '"') (bare : c ≠ '\\')
      (printed : 0x20 ≤ c.toNat) (more : Quoted cs marks rest) :
      Quoted (c :: cs) (.single c :: marks) rest
  | letter {l c : Char} {cs rest : List Char} {marks : List Mark} (h : unescape? l = some c)
      (more : Quoted cs marks rest) : Quoted ('\\' :: l :: cs) (.single c :: marks) rest
  | coded {code : Nat} {cs after rest : List Char} {marks : List Mark}
      (h : hexFour? cs = some (code, after)) (whole : ¬ (0xD800 ≤ code ∧ code < 0xE000))
      (more : Quoted after marks rest) :
      Quoted ('\\' :: 'u' :: cs) (.single (Char.ofNat code) :: marks) rest
  | pair {high low : Nat} {cs ds after rest : List Char} {marks : List Mark}
      (h : hexFour? cs = some (high, '\\' :: 'u' :: ds)) (leading : 0xD800 ≤ high ∧ high < 0xDC00)
      (l : hexFour? ds = some (low, after)) (trailing : 0xDC00 ≤ low ∧ low < 0xE000)
      (more : Quoted after marks rest) : Quoted ('\\' :: 'u' :: cs) (.pair high low :: marks) rest

mutual

/-- A value, and what is left behind it. -/
inductive Spells : List Char → Outline → List Char → Prop
  | null (rest : List Char) : Spells ('n' :: 'u' :: 'l' :: 'l' :: rest) .null rest
  | yes (rest : List Char) : Spells ('t' :: 'r' :: 'u' :: 'e' :: rest) (.bool true) rest
  | no (rest : List Char) : Spells ('f' :: 'a' :: 'l' :: 's' :: 'e' :: rest) (.bool false) rest
  | numeral {t : Spelling} {cs rest : List Char} (h : t.Valid) (split : cs = t.text ++ rest) :
      Spells cs (.numeral t) rest
  | string {cs rest : List Char} {marks : List Mark} (h : Quoted cs marks rest) :
      Spells ('"' :: cs) (.string marks) rest
  | emptyArray {cs rest : List Char} (close : Spaces cs (']' :: rest)) :
      Spells ('[' :: cs) (.array []) rest
  | array {cs ds rest : List Char} {os : List Outline} (spaces : Spaces cs ds)
      (h : SpellsItems ds os rest) : Spells ('[' :: cs) (.array os) rest
  | emptyObject {cs rest : List Char} (close : Spaces cs ('\x7d' :: rest)) :
      Spells ('\x7b' :: cs) (.object []) rest
  | object {cs ds rest : List Char} {ms : List (List Mark × Outline)} (spaces : Spaces cs ds)
      (h : SpellsMembers ds ms rest) : Spells ('\x7b' :: cs) (.object ms) rest

/-- At least one item, up to the closing bracket. -/
inductive SpellsItems : List Char → List Outline → List Char → Prop
  | last {cs ds rest : List Char} {o : Outline} (h : Spells cs o ds)
      (close : Spaces ds (']' :: rest)) : SpellsItems cs [o] rest
  | more {cs ds es fs rest : List Char} {o : Outline} {os : List Outline} (h : Spells cs o ds)
      (comma : Spaces ds (',' :: es)) (spaces : Spaces es fs) (others : SpellsItems fs os rest) :
      SpellsItems cs (o :: os) rest

/-- A name, a colon and a value. -/
inductive SpellsMember : List Char → List Mark × Outline → List Char → Prop
  | mk {cs ds es fs rest : List Char} {name : List Mark} {o : Outline} (key : Quoted cs name ds)
      (colon : Spaces ds (':' :: es)) (spaces : Spaces es fs) (h : Spells fs o rest) :
      SpellsMember ('"' :: cs) (name, o) rest

/-- At least one member, up to the closing brace. -/
inductive SpellsMembers : List Char → List (List Mark × Outline) → List Char → Prop
  | last {cs ds rest : List Char} {m : List Mark × Outline} (h : SpellsMember cs m ds)
      (close : Spaces ds ('\x7d' :: rest)) : SpellsMembers cs [m] rest
  | more {cs ds es fs rest : List Char} {m : List Mark × Outline}
      {ms : List (List Mark × Outline)} (h : SpellsMember cs m ds) (comma : Spaces ds (',' :: es))
      (spaces : Spaces es fs) (others : SpellsMembers fs ms rest) : SpellsMembers cs (m :: ms) rest

end

/-- A value with space around it. -/
inductive Stands : List Char → Outline → List Char → Prop
  | mk {cs ds es rest : List Char} {o : Outline} (before : Spaces cs ds) (h : Spells ds o es)
      (behind : Spaces es rest) : Stands cs o rest

/-! ## What the strict reader takes -/

variable {cs ds rest : List Char} {fuel depth : Nat} {v : Value}

theorem spaces_skipSpace (cs : List Char) : Spaces cs (skipSpace cs) :=
  Text.skips_dropWhile isSpace cs

theorem spaces_of_eq (h : skipSpace cs = ds) : Spaces cs ds := h ▸ spaces_skipSpace cs

/-- Four hexadecimal digits and their number. -/
theorem hexFour?_eq_some {code : Nat} (h : hexFour? cs = some (code, rest)) :
    ∃ w x y z a b c d, cs = w :: x :: y :: z :: rest ∧ hexValue? w = some a ∧
      hexValue? x = some b ∧ hexValue? y = some c ∧ hexValue? z = some d ∧
      code = ((a * 16 + b) * 16 + c) * 16 + d := by
  unfold hexFour? at h
  split at h
  · rename_i w x y z tail
    simp only [Option.bind_eq_bind, Option.bind_eq_some_iff, Option.some.injEq,
      Prod.mk.injEq] at h
    obtain ⟨a, ha, b, hb, c, hc, d, hd, rfl, rfl⟩ := h
    exact ⟨w, x, y, z, a, b, c, d, rfl, ha, hb, hc, hd, rfl⟩
  · cases h

/-- A numeric escape is a character of its own or a whole surrogate pair. -/
theorem codePoint?_cases {c : Char} (h : codePoint? cs = some (c, rest)) :
    (∃ code, hexFour? cs = some (code, rest) ∧ ¬ (0xD800 ≤ code ∧ code < 0xE000) ∧
      c = Char.ofNat code) ∨
    (∃ high low ds, hexFour? cs = some (high, '\\' :: 'u' :: ds) ∧
      (0xD800 ≤ high ∧ high < 0xDC00) ∧ hexFour? ds = some (low, rest) ∧
      (0xDC00 ≤ low ∧ low < 0xE000) ∧ c = (Mark.pair high low).char) := by
  simp only [codePoint?, Option.bind_eq_bind, Option.bind_eq_some_iff] at h
  obtain ⟨⟨unit, after⟩, four, h⟩ := h
  dsimp only at h
  split at h
  · cases h
  · rename_i notLow
    split at h
    · rename_i leading
      split at h
      · simp only [Option.bind_eq_some_iff] at h
        obtain ⟨⟨low, after⟩, trailingFour, h⟩ := h
        dsimp only at h
        split at h
        · rename_i trailing
          simp only [Option.some.injEq, Prod.mk.injEq] at h
          obtain ⟨rfl, rfl⟩ := h
          exact .inr ⟨unit, low, _, four, leading, trailingFour, trailing, by rw [Mark.char]⟩
        · cases h
      · cases h
    · rename_i notHigh
      cases h
      exact .inl ⟨unit, four, by omega, rfl⟩

theorem quoted_of_readQuoted {body : List Char} (h : readQuoted fuel cs = some (body, rest)) :
    ∃ marks, Quoted cs marks rest ∧ body = marks.map Mark.char := by
  induction fuel generalizing cs body with
  | zero => cases h
  | succ fuel ih =>
    cases cs with
    | nil => cases h
    | cons c cs =>
      simp only [readQuoted] at h
      split at h
      · rename_i hc
        subst hc
        cases h
        exact ⟨[], .close rest, rfl⟩
      · rename_i other
        split at h
        · rename_i hc
          subst hc
          split at h
          · rename_i cs
            simp only [Option.bind_eq_bind, Option.bind_eq_some_iff] at h
            obtain ⟨⟨c, after⟩, hc, ⟨body, _⟩, hb, h⟩ := h
            cases h
            obtain ⟨marks, more, rfl⟩ := ih hb
            rcases codePoint?_cases hc with
              ⟨code, four, whole, rfl⟩ | ⟨high, low, ds, four, leading, lowFour, trailing, hc⟩
            · exact ⟨.single _ :: marks, .coded four whole more, rfl⟩
            · exact ⟨.pair high low :: marks, .pair four leading lowFour trailing more,
                by rw [List.map_cons, hc]⟩
          · rename_i l cs _
            simp only [Option.bind_eq_bind, Option.bind_eq_some_iff] at h
            obtain ⟨c, hc, ⟨body, _⟩, hb, h⟩ := h
            cases h
            obtain ⟨marks, more, rfl⟩ := ih hb
            exact ⟨.single c :: marks, .letter hc more, rfl⟩
          · cases h
        · rename_i bare
          split at h
          · cases h
          · rename_i printed
            simp only [Option.bind_eq_bind, Option.bind_eq_some_iff] at h
            obtain ⟨⟨body, _⟩, hb, h⟩ := h
            cases h
            obtain ⟨marks, more, rfl⟩ := ih hb
            exact ⟨.single c :: marks, .plain other bare (Nat.not_lt.mp printed) more, rfl⟩

theorem quoted_of_readString {s : String} (h : readString cs = some (s, rest)) :
    ∃ marks, Quoted cs marks rest ∧ s = textOf marks := by
  obtain ⟨⟨body, _⟩, hb, h⟩ := Option.map_eq_some_iff.mp h
  cases h
  obtain ⟨marks, quoted, rfl⟩ := quoted_of_readQuoted hb
  exact ⟨marks, quoted, rfl⟩

/-- With this many steps the strict reader takes only what has an outline. -/
structure SoundAt (fuel : Nat) : Prop where
  value : ∀ {depth cs v rest}, readValue fuel depth cs = some (v, rest) →
    ∃ o, Spells cs o rest ∧ o.value? Spelling.number? = some v
  items : ∀ {depth cs vs rest}, readItems fuel depth cs = some (vs, rest) →
    ∃ os, SpellsItems cs os rest ∧ Outline.itemValues? Spelling.number? os = some vs
  members : ∀ {depth cs pairs rest}, readMembers fuel depth cs = some (pairs, rest) →
    ∃ ms, SpellsMembers cs ms rest ∧ Outline.memberValues? Spelling.number? ms = some pairs
  object : ∀ {depth cs pairs rest}, readObject fuel depth cs = some (pairs, rest) →
    (pairs = [] ∧ cs = '\x7d' :: rest) ∨
      ∃ ms, SpellsMembers cs ms rest ∧ Outline.memberValues? Spelling.number? ms = some pairs

theorem SoundAt.value_succ (sound : SoundAt fuel)
    (h : readValue (fuel + 1) depth cs = some (v, rest)) :
    ∃ o, Spells cs o rest ∧ o.value? Spelling.number? = some v := by
  unfold readValue at h
  split at h
  · cases h
    exact ⟨.null, .null rest, rfl⟩
  · cases h
    exact ⟨.bool true, .yes rest, rfl⟩
  · cases h
    exact ⟨.bool false, .no rest, rfl⟩
  · obtain ⟨⟨s, _⟩, hs, h⟩ := Option.map_eq_some_iff.mp h
    cases h
    obtain ⟨marks, quoted, rfl⟩ := quoted_of_readString hs
    exact ⟨.string marks, .string quoted, rfl⟩
  · split at h
    · cases h
    · split at h
      · rename_i close
        cases h
        exact ⟨.array [], .emptyArray (spaces_of_eq close), rfl⟩
      · obtain ⟨⟨items, _⟩, hi, h⟩ := Option.map_eq_some_iff.mp h
        cases h
        obtain ⟨os, spells, value⟩ := sound.items hi
        exact ⟨.array os, .array (spaces_skipSpace _) spells, by simp [Outline.value?, value]⟩
  · split at h
    · cases h
    · obtain ⟨⟨pairs, _⟩, hp, h⟩ := Option.map_eq_some_iff.mp h
      cases h
      rcases sound.object hp with ⟨rfl, close⟩ | ⟨ms, spells, value⟩
      · exact ⟨.object [], .emptyObject (spaces_of_eq close), rfl⟩
      · exact ⟨.object ms, .object (spaces_skipSpace _) spells, by simp [Outline.value?, value]⟩
  · obtain ⟨⟨n, _⟩, hn, h⟩ := Option.map_eq_some_iff.mp h
    cases h
    simp only [readNumber, Option.bind_eq_bind, Option.bind_eq_some_iff] at hn
    obtain ⟨⟨x, _⟩, hx, n, number, hn⟩ := hn
    cases hn
    obtain ⟨t, valid, rfl, split⟩ := readNumeral_eq_some hx
    exact ⟨.numeral t, .numeral valid split, by simp [Outline.value?, Spelling.number?, number]⟩

theorem SoundAt.items_succ (sound : SoundAt fuel) {vs : List Value}
    (h : readItems (fuel + 1) depth cs = some (vs, rest)) :
    ∃ os, SpellsItems cs os rest ∧ Outline.itemValues? Spelling.number? os = some vs := by
  unfold readItems at h
  split at h
  · cases h
  · rename_i hv
    obtain ⟨o, spells, value⟩ := sound.value hv
    split at h
    · rename_i close
      cases h
      exact ⟨[o], .last spells (spaces_of_eq close), by simp [Outline.itemValues?, value]⟩
    · rename_i comma
      obtain ⟨⟨ws, _⟩, hw, h⟩ := Option.map_eq_some_iff.mp h
      cases h
      obtain ⟨os, others, values⟩ := sound.items hw
      exact ⟨o :: os, .more spells (spaces_of_eq comma) (spaces_skipSpace _) others,
        by simp [Outline.itemValues?, value, values]⟩
    · cases h

theorem SoundAt.members_succ (sound : SoundAt fuel) {pairs : List (String × Value)}
    (h : readMembers (fuel + 1) depth cs = some (pairs, rest)) :
    ∃ ms, SpellsMembers cs ms rest ∧ Outline.memberValues? Spelling.number? ms = some pairs := by
  unfold readMembers at h
  split at h
  · split at h
    · cases h
    · rename_i hk
      obtain ⟨name, key, rfl⟩ := quoted_of_readString hk
      split at h
      · rename_i colon
        split at h
        · cases h
        · rename_i hv
          obtain ⟨o, spells, value⟩ := sound.value hv
          have member := SpellsMember.mk key (spaces_of_eq colon) (spaces_skipSpace _) spells
          split at h
          · rename_i close
            cases h
            exact ⟨[(name, o)], .last member (spaces_of_eq close),
              by simp [Outline.memberValues?, value]⟩
          · rename_i comma
            obtain ⟨⟨others, _⟩, ho, h⟩ := Option.map_eq_some_iff.mp h
            cases h
            obtain ⟨ms, more, values⟩ := sound.members ho
            exact ⟨(name, o) :: ms, .more member (spaces_of_eq comma) (spaces_skipSpace _) more,
              by simp [Outline.memberValues?, value, values]⟩
          · cases h
      · cases h
  · cases h

theorem SoundAt.object_succ (sound : SoundAt fuel) {pairs : List (String × Value)}
    (h : readObject (fuel + 1) depth cs = some (pairs, rest)) :
    (pairs = [] ∧ cs = '\x7d' :: rest) ∨
      ∃ ms, SpellsMembers cs ms rest ∧ Outline.memberValues? Spelling.number? ms = some pairs := by
  unfold readObject at h
  split at h
  · cases h
    exact .inl ⟨rfl, rfl⟩
  · exact .inr (sound.members h)

theorem soundAt (fuel : Nat) : SoundAt fuel := by
  induction fuel with
  | zero =>
    refine ⟨fun h => ?_, fun h => ?_, fun h => ?_, fun h => ?_⟩
    · simp [readValue] at h
    · simp [readItems] at h
    · simp [readMembers] at h
    · simp [readObject] at h
  | succ fuel ih => exact ⟨ih.value_succ, ih.items_succ, ih.members_succ, ih.object_succ⟩

/-- A JSON text has an outline, and its value is what the outline means. -/
theorem exists_outline {s : String} (h : Value.ofJson? s = some v) :
    ∃ o, Stands s.toList o [] ∧ o.value? Spelling.number? = some v := by
  unfold Value.ofJson? read readWithin at h
  split at h
  · rename_i hv
    split at h
    · rename_i behind
      cases h
      obtain ⟨o, spells, value⟩ := (soundAt _).value hv
      exact ⟨o, .mk (spaces_skipSpace _) spells (spaces_of_eq (List.isEmpty_iff.mp behind)), value⟩
    · cases h
  · cases h

/-! ## Names -/

section Names

variable {number? : Spelling → Option Number}

mutual

/-- Whatever numerals are read as, an outline means a value whose names are distinct. -/
theorem Outline.distinct_of_value? : ∀ {o : Outline} {v : Value},
    o.value? number? = some v → v.Distinct
  | .null, _, h => by
    cases h
    exact .null
  | .bool b, _, h => by
    cases h
    exact .bool b
  | .numeral t, _, h => by
    obtain ⟨n, _, rfl⟩ := Option.map_eq_some_iff.mp h
    exact .number n
  | .string marks, _, h => by
    cases h
    exact .string _
  | .array items, _, h => by
    obtain ⟨vs, hvs, rfl⟩ := Option.map_eq_some_iff.mp h
    exact .array (Outline.distinct_of_itemValues? hvs)
  | .object ms, _, h => by
    obtain ⟨pairs, hp, rfl⟩ := Option.map_eq_some_iff.mp h
    exact .ofPairs (Outline.distinct_of_memberValues? hp)

theorem Outline.distinct_of_itemValues? : ∀ {os : List Outline} {vs : List Value},
    Outline.itemValues? number? os = some vs → ∀ v ∈ vs, v.Distinct
  | [], _, h => by
    cases h
    exact nofun
  | o :: os, _, h => by
    obtain ⟨v, vs, hv, hvs, rfl⟩ := Outline.itemValues?_cons_iff.mp h
    exact List.forall_mem_cons.mpr
      ⟨Outline.distinct_of_value? hv, Outline.distinct_of_itemValues? hvs⟩

theorem Outline.distinct_of_memberValues? : ∀ {ms : List (List Mark × Outline)}
    {pairs : List (String × Value)}, Outline.memberValues? number? ms = some pairs →
      ∀ m ∈ pairs, m.2.Distinct
  | [], _, h => by
    cases h
    exact nofun
  | (name, o) :: ms, _, h => by
    obtain ⟨v, pairs, hv, hp, rfl⟩ := Outline.memberValues?_cons_iff.mp h
    exact List.forall_mem_cons.mpr
      ⟨Outline.distinct_of_value? hv, Outline.distinct_of_memberValues? hp⟩

end

theorem distinct_of_ofJson? {s : String} (h : Value.ofJson? s = some v) : v.Distinct := by
  obtain ⟨_, _, value⟩ := exists_outline h
  exact Outline.distinct_of_value? value

end Names

/-! ## What is left gets shorter -/

theorem hexFour?_length {code : Nat} (h : hexFour? cs = some (code, rest)) :
    rest.length + 4 = cs.length := by
  obtain ⟨_, _, _, _, _, _, _, _, rfl, _⟩ := hexFour?_eq_some h
  rfl

theorem Quoted.length_lt {marks : List Mark} (h : Quoted cs marks rest) :
    rest.length < cs.length := by
  induction h with
  | close => exact Nat.lt_succ_self _
  | plain _ _ _ _ ih => exact Nat.lt_succ_of_lt ih
  | letter _ _ ih => exact Nat.lt_succ_of_lt (Nat.lt_succ_of_lt ih)
  | coded h _ _ ih =>
    have := hexFour?_length h
    simp only [List.length_cons]
    omega
  | pair h _ l _ _ ih =>
    have := hexFour?_length h
    have := hexFour?_length l
    simp only [List.length_cons] at *
    omega

mutual

theorem Spells.length_lt {cs rest : List Char} {o : Outline} :
    Spells cs o rest → rest.length < cs.length
  | .null rest => by
    simp only [List.length_cons]
    omega
  | .yes rest => by
    simp only [List.length_cons]
    omega
  | .no rest => by
    simp only [List.length_cons]
    omega
  | .numeral h split => by
    obtain ⟨c, ds, text, _⟩ := h.begins
    rw [split, text]
    simp only [List.cons_append, List.length_cons, List.length_append]
    omega
  | .string h => Nat.lt_succ_of_lt h.length_lt
  | .emptyArray close => Nat.lt_succ_of_lt (Skips.length_lt close)
  | .array spaces h => Nat.lt_trans h.length_lt (Nat.lt_succ_of_le (Skips.length_le spaces))
  | .emptyObject close => Nat.lt_succ_of_lt (Skips.length_lt close)
  | .object spaces h => Nat.lt_trans h.length_lt (Nat.lt_succ_of_le (Skips.length_le spaces))

theorem SpellsItems.length_lt {cs rest : List Char} {os : List Outline} :
    SpellsItems cs os rest → rest.length < cs.length
  | .last h close => Nat.lt_trans (Skips.length_lt close) h.length_lt
  | .more h comma spaces others =>
    Nat.lt_trans others.length_lt (Nat.lt_of_le_of_lt (Skips.length_le spaces)
      (Nat.lt_trans (Skips.length_lt comma) h.length_lt))

theorem SpellsMember.length_lt {cs rest : List Char} {m : List Mark × Outline} :
    SpellsMember cs m rest → rest.length < cs.length
  | .mk key colon spaces h =>
    Nat.lt_succ_of_lt (Nat.lt_trans h.length_lt (Nat.lt_of_le_of_lt (Skips.length_le spaces)
      (Nat.lt_trans (Skips.length_lt colon) key.length_lt)))

theorem SpellsMembers.length_lt {cs rest : List Char} {ms : List (List Mark × Outline)} :
    SpellsMembers cs ms rest → rest.length < cs.length
  | .last h close => Nat.lt_trans (Skips.length_lt close) h.length_lt
  | .more h comma spaces others =>
    Nat.lt_trans others.length_lt (Nat.lt_of_le_of_lt (Skips.length_le spaces)
      (Nat.lt_trans (Skips.length_lt comma) h.length_lt))

end

/-! ## Texts in longer texts -/

section Longer

variable {more : List Char}

theorem hexFour?_append {code : Nat} (h : hexFour? cs = some (code, rest)) :
    hexFour? (cs ++ more) = some (code, rest ++ more) := by
  obtain ⟨_, _, _, _, a, b, c, d, rfl, ha, hb, hc, hd, rfl⟩ := hexFour?_eq_some h
  simp [hexFour?, ha, hb, hc, hd]

theorem Quoted.append {marks : List Mark} (h : Quoted cs marks rest) :
    Quoted (cs ++ more) marks (rest ++ more) := by
  induction h with
  | close rest => exact .close _
  | plain other bare printed _ ih => exact .plain other bare printed ih
  | letter h _ ih => exact .letter h ih
  | coded h whole _ ih => exact .coded (hexFour?_append h) whole ih
  | pair h leading l trailing _ ih =>
    exact .pair (hexFour?_append h) leading (hexFour?_append l) trailing ih

mutual

theorem Spells.append {cs rest more : List Char} {o : Outline} :
    Spells cs o rest → Spells (cs ++ more) o (rest ++ more)
  | .null rest => .null (rest ++ more)
  | .yes rest => .yes (rest ++ more)
  | .no rest => .no (rest ++ more)
  | .numeral h split => .numeral h (by rw [split, List.append_assoc])
  | .string h => .string h.append
  | .emptyArray close => .emptyArray (Skips.append close more)
  | .array spaces h => .array (Skips.append spaces more) h.append
  | .emptyObject close => .emptyObject (Skips.append close more)
  | .object spaces h => .object (Skips.append spaces more) h.append

theorem SpellsItems.append {cs rest more : List Char} {os : List Outline} :
    SpellsItems cs os rest → SpellsItems (cs ++ more) os (rest ++ more)
  | .last h close => .last h.append (Skips.append close more)
  | .more h comma spaces others =>
    .more h.append (Skips.append comma more) (Skips.append spaces more) others.append

theorem SpellsMember.append {cs rest more : List Char} {m : List Mark × Outline} :
    SpellsMember cs m rest → SpellsMember (cs ++ more) m (rest ++ more)
  | .mk key colon spaces h =>
    .mk key.append (Skips.append colon more) (Skips.append spaces more) h.append

theorem SpellsMembers.append {cs rest more : List Char} {ms : List (List Mark × Outline)} :
    SpellsMembers cs ms rest → SpellsMembers (cs ++ more) ms (rest ++ more)
  | .last h close => .last h.append (Skips.append close more)
  | .more h comma spaces others =>
    .more h.append (Skips.append comma more) (Skips.append spaces more) others.append

end

theorem Stands.append {o : Outline} (h : Stands cs o rest) :
    Stands (cs ++ more) o (rest ++ more) := by
  obtain ⟨before, h, behind⟩ := h
  exact .mk (before.append more) h.append (behind.append more)

end Longer

end CommandContract.Json
