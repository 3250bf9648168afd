import CommandContract.Proofs.Json.Outline

set_option autoImplicit false

/-!
# The strict reader and the grammar of JSON

A text that the grammar of JSON derives is read as its outline says, as long as no more containers
stand in each other than may be open and no numeral is too large: `ofJson?_eq_some_iff`.
-/
namespace CommandContract

/-! ## Depth -/

namespace Json.Outline

mutual

/-- How many containers stand in each other. -/
def depth : Outline → Nat
  | array items => itemDepth items + 1
  | object ms => memberDepth ms + 1
  | null | bool _ | numeral _ | string _ => 0

def itemDepth : List Outline → Nat
  | [] => 0
  | o :: os => max (depth o) (itemDepth os)

def memberDepth : List (List Mark × Outline) → Nat
  | [] => 0
  | (_, o) :: ms => max (depth o) (memberDepth ms)

end

end Json.Outline

namespace Json

open Text (Skips run_iff)

variable {cs ds es rest : List Char} {fuel depth : Nat} {v : Value}

/-! ## Numerals -/

/-- A numeral does not go on here. -/
def Ends (rest : List Char) : Prop :=
  ∀ c ∈ rest.head?, c.isDigit = false ∧ c ≠ '.' ∧ c ≠ 'e' ∧ c ≠ 'E'

theorem readWhole_append {digits : List Char} (h : IsDigits digits)
    (zero : digits.head? = some '0' → digits = ['0']) (stop : ∀ c ∈ rest.head?, c.isDigit = false) :
    readWhole (digits ++ rest) = some (digits, rest) := by
  unfold readWhole
  split
  · rename_i behind he
    obtain ⟨d, tail, rfl⟩ := List.exists_cons_of_ne_nil h.1
    cases he
    cases zero rfl
    rfl
  · rw [Spelling.span_digits h.2 stop]
    simp only [h.isEmpty, Bool.false_eq_true, if_false]

theorem readFraction_append {digits : List Char} (h : ∀ c ∈ digits, c.isDigit = true)
    (stop : ∀ c ∈ rest.head?, c.isDigit = false ∧ c ≠ '.') :
    readFraction (Spelling.pointed digits ++ rest) = some (digits, rest) := by
  cases digits with
  | nil =>
    cases rest with
    | nil => rfl
    | cons c rest => simp [Spelling.pointed, readFraction, (stop c rfl).2]
  | cons d digits =>
    simp only [Spelling.pointed, reduceCtorEq, if_false, List.cons_append, readFraction]
    rw [← List.cons_append, Spelling.span_digits h fun c hc => (stop c hc).1]
    simp

theorem readExponent_append {e : Option Exponent} (h : ∀ x ∈ e, x.Valid) (stop : Ends rest) :
    readExponent ((e.map Exponent.text).getD [] ++ rest) = some (e.map Exponent.value, rest) := by
  cases e with
  | none =>
    cases rest with
    | nil => rfl
    | cons c rest =>
      obtain ⟨_, _, he, hE⟩ := stop c rfl
      simp [readExponent, he, hE]
  | some e =>
    obtain ⟨mark, sign, digits⟩ := e
    have valid := h _ rfl
    have mark : mark = 'e' ∨ mark = 'E' := valid.mark
    have run : (digits ++ rest).span Char.isDigit = (digits, rest) :=
      Spelling.span_digits valid.digits.2 fun c hc => (stop c hc).1
    obtain ⟨d, tail, rfl⟩ : ∃ d tail, digits = d :: tail :=
      List.exists_cons_of_ne_nil valid.digits.1
    have digit : d.isDigit = true := valid.digits.2 d List.mem_cons_self
    have minus : d ≠ '-' := by
      rintro rfl
      cases digit
    have plus : d ≠ '+' := by
      rintro rfl
      cases digit
    rw [List.cons_append, List.span_eq_takeWhile_dropWhile, Prod.mk.injEq] at run
    obtain ⟨taken, left⟩ := run
    rcases (valid.sign : sign = none ∨ sign = some '+' ∨ sign = some '-') with rfl | rfl | rfl <;>
      simp [readExponent, Exponent.text, Exponent.value, mark, taken, left, minus, plus]

theorem readNumeral_sign {negative : Bool} {body : List Char} (h : body.head? ≠ some '-') :
    readNumeral ((if negative then ['-'] else []) ++ body) =
      (readWhole body).bind fun (whole, rest) => (readFraction rest).bind fun (fraction, rest) =>
        (readExponent rest).bind fun (exponent, rest) =>
          some (⟨negative, whole, fraction, exponent.getD 0,
            fraction.isEmpty && exponent.isNone⟩, rest) := by
  unfold readNumeral
  cases negative with
  | true => rfl
  | false =>
    split
    rename_i sign rest he
    split at he
    · rename_i body same
      cases same
      exact absurd rfl h
    · cases he
      rfl

theorem readNumeral_text {t : Spelling} (h : t.Valid) (stop : Ends rest) :
    readNumeral (t.text ++ rest) = some (t.numeral, rest) := by
  obtain ⟨negative, whole, fraction, exponent⟩ := t
  have mark : ∀ c ∈ ((exponent.map Exponent.text).getD [] ++ rest).head?,
      c.isDigit = false ∧ c ≠ '.' := by
    cases exponent with
    | none => exact fun c hc => ⟨(stop c hc).1, (stop c hc).2.1⟩
    | some e =>
      rintro c ⟨⟩
      rcases (h.exponent e rfl).mark with hm | hm <;> rw [hm] <;> decide
  have point : ∀ c ∈ (Spelling.pointed fraction ++
      ((exponent.map Exponent.text).getD [] ++ rest)).head?, c.isDigit = false := by
    cases fraction with
    | nil => exact fun c hc => (mark c hc).1
    | cons d fraction =>
      rintro c ⟨⟩
      rfl
  have digits := readWhole_append h.whole h.zero point
  have behind := readFraction_append h.fraction mark
  have power := readExponent_append h.exponent stop
  have first : (whole ++ (Spelling.pointed fraction ++
      ((exponent.map Exponent.text).getD [] ++ rest))).head? ≠ some '-' := by
    obtain ⟨d, tail, rfl⟩ : ∃ d tail, whole = d :: tail := List.exists_cons_of_ne_nil h.whole.1
    rintro ⟨⟩
    exact absurd (h.whole.2 '-' List.mem_cons_self) (by decide)
  have text : (Spelling.mk negative whole fraction exponent).text ++ rest =
      (if negative then ['-'] else []) ++ (whole ++ (Spelling.pointed fraction ++
        ((exponent.map Exponent.text).getD [] ++ rest))) := by
    simp only [Spelling.text, List.append_assoc]
  rw [text, readNumeral_sign first]
  simp only [digits, behind, power, Option.bind_some, Spelling.numeral,
    Spelling.power, Spelling.plain, Option.isNone_map]

theorem readNumber_text_iff {t : Spelling} {n : Number} (h : t.Valid) (stop : Ends rest) :
    readNumber (t.text ++ rest) = some (n, es) ↔ es = rest ∧ t.number? = some n := by
  simp only [readNumber, readNumeral_text h stop, Option.bind_eq_bind, Option.bind_some,
    Option.bind_eq_some_iff, Option.some.injEq, Prod.mk.injEq]
  constructor
  · rintro ⟨m, hm, rfl, rfl⟩
    exact ⟨rfl, hm⟩
  · rintro ⟨rfl, hm⟩
    exact ⟨n, hm, rfl, rfl⟩

/-! ## Strings -/

theorem codePoint?_coded {code : Nat} (h : hexFour? cs = some (code, rest))
    (whole : ¬ (0xD800 ≤ code ∧ code < 0xE000)) :
    codePoint? cs = some (Char.ofNat code, rest) := by
  have low : ¬ (0xDC00 ≤ code ∧ code < 0xE000) := by omega
  have high : ¬ (0xD800 ≤ code ∧ code < 0xDC00) := by omega
  simp [codePoint?, h, low, high]

theorem codePoint?_pair {high low : Nat} (h : hexFour? cs = some (high, '\\' :: 'u' :: ds))
    (leading : 0xD800 ≤ high ∧ high < 0xDC00) (l : hexFour? ds = some (low, rest))
    (trailing : 0xDC00 ≤ low ∧ low < 0xE000) :
    codePoint? cs = some ((Mark.pair high low).char, rest) := by
  have other : ¬ (0xDC00 ≤ high ∧ high < 0xE000) := by omega
  simp only [codePoint?, h, Option.bind_eq_bind, Option.bind_some, if_neg other, if_pos leading, l,
    if_pos trailing, Mark.char]

theorem readQuoted_of_quoted {marks : List Mark} (h : Quoted cs marks rest)
    (enough : cs.length ≤ fuel) : readQuoted fuel cs = some (marks.map Mark.char, rest) := by
  induction h generalizing fuel with
  | close =>
    cases fuel with
    | zero => exact absurd enough (Nat.not_succ_le_zero _)
    | succ fuel => simp [readQuoted]
  | plain other bare printed _ ih =>
    cases fuel with
    | zero => exact absurd enough (Nat.not_succ_le_zero _)
    | succ fuel =>
      have below := ih (Nat.le_of_succ_le_succ enough)
      simp [readQuoted, other, bare, Nat.not_lt.mpr printed, below, Mark.char]
  | @letter l c cs rest marks h _ ih =>
    cases fuel with
    | zero => exact absurd enough (Nat.not_succ_le_zero _)
    | succ fuel =>
      rw [List.length_cons, List.length_cons] at enough
      have below := ih (by omega : cs.length ≤ fuel)
      have other : l ≠ 'u' := by
        rintro rfl
        cases h
      simp [readQuoted, h, below, Mark.char]
  | @coded code cs after rest marks h whole _ ih =>
    cases fuel with
    | zero => exact absurd enough (Nat.not_succ_le_zero _)
    | succ fuel =>
      have shorter := hexFour?_length h
      rw [List.length_cons, List.length_cons] at enough
      have below := ih (by omega : after.length ≤ fuel)
      simp [readQuoted, codePoint?_coded h whole, below, Mark.char]
  | @pair high low cs ds after rest marks h leading l trailing _ ih =>
    cases fuel with
    | zero => exact absurd enough (Nat.not_succ_le_zero _)
    | succ fuel =>
      have first := hexFour?_length h
      have second := hexFour?_length l
      simp only [List.length_cons] at enough first
      have below := ih (by omega : after.length ≤ fuel)
      simp [readQuoted, codePoint?_pair h leading l trailing, below]

theorem readString_of_quoted {marks : List Mark} (h : Quoted cs marks rest) :
    readString cs = some (textOf marks, rest) := by
  rw [readString, readQuoted_of_quoted h (Nat.le_succ _)]
  rfl

/-! ## Values -/

/-- What a value begins with is no space, and nothing that ends a list. -/
theorem Spells.begins {o : Outline} (h : Spells cs o rest) :
    ∃ c ds, cs = c :: ds ∧ isSpace c = false ∧ c ≠ ']' := by
  cases h with
  | numeral h split =>
    obtain ⟨c, ds, text, start⟩ := h.begins
    refine ⟨c, ds ++ rest, by rw [split, text]; rfl, ?_, ne_of_isNumeralStart start rfl⟩
    simp [isSpace, ne_of_isNumeralStart start (d := ' ') rfl,
      ne_of_isNumeralStart start (d := '\n') rfl, ne_of_isNumeralStart start (d := '\r') rfl,
      ne_of_isNumeralStart start (d := '\t') rfl]
  | _ => exact ⟨_, _, rfl, by decide, by decide⟩

theorem Spells.solid {o : Outline} (h : Spells cs o rest) : ∀ c ∈ cs.head?, isSpace c = false := by
  obtain ⟨c, cs, rfl, space, _⟩ := h.begins
  rintro d ⟨⟩
  exact space

theorem items_begin {os : List Outline} (h : SpellsItems cs os rest) :
    (∀ c ∈ cs.head?, isSpace c = false) ∧ ∀ ds, cs ≠ ']' :: ds := by
  have first : ∀ {o ds}, Spells cs o ds →
      (∀ c ∈ cs.head?, isSpace c = false) ∧ ∀ ds, cs ≠ ']' :: ds := by
    intro o ds h
    obtain ⟨c, _, rfl, _, other⟩ := h.begins
    exact ⟨h.solid, fun ds he => other (List.cons.inj he).1⟩
  cases h with
  | last h => exact first h
  | more h => exact first h

theorem members_begin {ms : List (List Mark × Outline)} (h : SpellsMembers cs ms rest) :
    ∃ ds, cs = '"' :: ds := by
  have quote : ∀ {m ds}, SpellsMember cs m ds → ∃ ds, cs = '"' :: ds := by
    rintro _ _ ⟨⟩
    exact ⟨_, rfl⟩
  cases h with
  | last h => exact quote h
  | more h => exact quote h

theorem members_solid {ms : List (List Mark × Outline)} (h : SpellsMembers cs ms rest) :
    ∀ c ∈ cs.head?, isSpace c = false := by
  obtain ⟨_, rfl⟩ := members_begin h
  rintro c ⟨⟩
  rfl

theorem skipSpace_of_spaces (h : Spaces cs ds) (stop : ∀ c ∈ ds.head?, isSpace c = false) :
    skipSpace cs = ds :=
  h.dropWhile_eq stop

theorem skipSpace_of_cons {c : Char} (h : Spaces cs (c :: ds)) (hc : isSpace c = false) :
    skipSpace cs = c :: ds := by
  refine skipSpace_of_spaces h ?_
  rintro d ⟨⟩
  exact hc

theorem Ends.spaces (h : Spaces ds rest) (ends : Ends rest) : Ends ds := by
  cases h with
  | stay => exact ends
  | past h =>
    rintro d ⟨⟩
    simp only [isSpace, Bool.or_eq_true, decide_eq_true_eq] at h
    rcases h with ((rfl | rfl) | rfl) | rfl <;> decide

theorem ends_of_separator {c : Char} (h : Spaces ds (c :: rest))
    (hc : c.isDigit = false ∧ c ≠ '.' ∧ c ≠ 'e' ∧ c ≠ 'E') : Ends ds := by
  refine Ends.spaces h ?_
  rintro d ⟨⟩
  exact hc

/-- With this many steps the reader takes a text of the grammar as its outline says, if that is not
too deep, and takes nothing else. -/
structure TakesAt (fuel : Nat) : Prop where
  value : ∀ {cs o rest}, Spells cs o rest → Ends rest → 3 * cs.length ≤ fuel →
    ∀ depth v es, readValue fuel depth cs = some (v, es) ↔
      es = rest ∧ o.depth ≤ depth ∧ o.value? Spelling.number? = some v
  items : ∀ {cs os rest}, SpellsItems cs os rest → 3 * cs.length + 1 ≤ fuel →
    ∀ depth vs es, readItems fuel depth cs = some (vs, es) ↔
      es = rest ∧ Outline.itemDepth os ≤ depth ∧
        Outline.itemValues? Spelling.number? os = some vs
  members : ∀ {cs ms rest}, SpellsMembers cs ms rest → 3 * cs.length + 1 ≤ fuel →
    ∀ depth pairs es, readMembers fuel depth cs = some (pairs, es) ↔
      es = rest ∧ Outline.memberDepth ms ≤ depth ∧
        Outline.memberValues? Spelling.number? ms = some pairs
  object : ∀ {cs ms rest}, SpellsMembers cs ms rest → 3 * cs.length + 2 ≤ fuel →
    ∀ depth pairs es, readObject fuel depth cs = some (pairs, es) ↔
      es = rest ∧ Outline.memberDepth ms ≤ depth ∧
        Outline.memberValues? Spelling.number? ms = some pairs

section Steps

variable {os : List Outline} {ms : List (List Mark × Outline)} {o : Outline}

theorem readObject_succ (first : ∀ ds, cs ≠ '\x7d' :: ds) :
    readObject (fuel + 1) depth cs = readMembers fuel depth cs := by
  unfold readObject
  split
  · exact absurd rfl (first _)
  · rfl

theorem readValue_array {es : List Char} (h : skipSpace cs = es) (first : ∀ ds, es ≠ ']' :: ds) :
    readValue (fuel + 1) (depth + 1) ('[' :: cs) =
      (readItems fuel depth es).map fun (items, rest) => (.array items, rest) := by
  rw [readValue, h]
  split
  · exact absurd rfl (first _)
  · rfl

theorem readValue_emptyArray (h : skipSpace cs = ']' :: rest) :
    readValue (fuel + 1) (depth + 1) ('[' :: cs) = some (.array [], rest) := by
  rw [readValue, h]
  rfl

theorem readValue_object : readValue (fuel + 1) (depth + 1) ('\x7b' :: cs) =
    (readObject fuel depth (skipSpace cs)).map fun (pairs, rest) =>
      (.object (Members.ofPairs pairs), rest) := by
  rw [readValue]

theorem readValue_closed {c : Char} (hc : c = '[' ∨ c = '\x7b') :
    readValue (fuel + 1) 0 (c :: cs) = none := by
  rcases hc with rfl | rfl <;> rw [readValue]

/-- What is taken of the parts of a value says what is taken of the value that is built from them. -/
theorem map_read_iff {α : Type} {read : Option (α × List Char)} {held : Option α} {p : Prop}
    (build : α → Value) (parts : ∀ a, read = some (a, es) ↔ es = rest ∧ p ∧ held = some a) :
    (read.map fun (a, ds) => (build a, ds)) = some (v, es) ↔
      es = rest ∧ p ∧ held.map build = some v := by
  rw [Option.map_eq_some_iff, Option.map_eq_some_iff]
  constructor
  · rintro ⟨⟨a, _⟩, taken, he⟩
    cases he
    obtain ⟨ended, hp, value⟩ := (parts a).mp taken
    exact ⟨ended, hp, a, value, rfl⟩
  · rintro ⟨ended, hp, a, value, rfl⟩
    exact ⟨(a, es), (parts a).mpr ⟨ended, hp, value⟩, rfl⟩

/-- Where no container may open any more, none is read. -/
theorem readValue_closed_iff {c : Char} (hc : c = '[' ∨ c = '\x7b') (deep : 0 < o.depth) :
    readValue (fuel + 1) 0 (c :: cs) = some (v, es) ↔
      es = rest ∧ o.depth ≤ 0 ∧ o.value? Spelling.number? = some v := by
  rw [readValue_closed hc]
  exact ⟨nofun, fun ⟨_, shallow, _⟩ => absurd shallow (Nat.not_le_of_lt deep)⟩

theorem readValue_numeral_iff {t : Spelling} (valid : t.Valid) (ends : Ends rest) :
    readValue (fuel + 1) depth (t.text ++ rest) = some (v, es) ↔
      es = rest ∧ (Outline.numeral t).depth ≤ depth ∧
        (Outline.numeral t).value? Spelling.number? = some v := by
  obtain ⟨c, ds, text, start⟩ := valid.begins
  have number : ∀ n, readNumber (t.text ++ rest) = some (n, es) ↔ _ := fun n =>
    readNumber_text_iff valid ends
  rw [text, List.cons_append] at number ⊢
  rw [readValue_of_isNumeralStart start]
  exact map_read_iff .number fun n => (number n).trans
    (and_congr_right' (and_iff_right (Nat.zero_le depth)).symm)

theorem TakesAt.value_succ (takes : TakesAt fuel) (h : Spells cs o rest) (ends : Ends rest)
    (enough : 3 * cs.length ≤ fuel + 1) (depth : Nat) (v : Value) (es : List Char) :
    readValue (fuel + 1) depth cs = some (v, es) ↔
      es = rest ∧ o.depth ≤ depth ∧ o.value? Spelling.number? = some v := by
  have settled : ∀ {w : Value}, readValue (fuel + 1) depth cs = some (w, rest) → o.depth ≤ depth →
      o.value? Spelling.number? = some w → (readValue (fuel + 1) depth cs = some (v, es) ↔
        es = rest ∧ o.depth ≤ depth ∧ o.value? Spelling.number? = some v) := by
    intro w hw shallow value
    rw [hw, value]
    simp [shallow, and_comm, eq_comm]
  cases h with
  | null | yes | no =>
    refine settled ?_ (Nat.zero_le _) rfl
    rw [readValue]
  | numeral valid split =>
    rw [split]
    exact readValue_numeral_iff valid ends
  | string h =>
    refine settled ?_ (Nat.zero_le _) rfl
    rw [readValue, readString_of_quoted h]
    rfl
  | emptyArray close =>
    have close := skipSpace_of_cons close (by decide)
    cases depth with
    | zero => exact readValue_closed_iff (.inl rfl) (Nat.succ_pos _)
    | succ depth => exact settled (readValue_emptyArray close) (Nat.le_add_left _ _) rfl
  | array spaces h =>
    have := Skips.length_le spaces
    rw [List.length_cons] at enough
    cases depth with
    | zero => exact readValue_closed_iff (.inl rfl) (Nat.succ_pos _)
    | succ depth =>
      have start := skipSpace_of_spaces spaces (items_begin h).1
      rw [readValue_array start (items_begin h).2, Outline.depth, Outline.value?,
        Nat.add_le_add_iff_right]
      exact map_read_iff .array fun vs => takes.items h (by omega) depth vs es
  | @emptyObject cs _ close =>
    have := Skips.length_lt close
    rw [List.length_cons] at enough
    obtain ⟨fuel, rfl⟩ : ∃ n, fuel = n + 1 := ⟨fuel - 1, by omega⟩
    have close := skipSpace_of_cons close (by decide)
    cases depth with
    | zero => exact readValue_closed_iff (.inr rfl) (Nat.succ_pos _)
    | succ depth =>
      refine settled ?_ (Nat.le_add_left _ _) rfl
      rw [readValue_object, close, readObject]
      rfl
  | object spaces h =>
    have := Skips.length_le spaces
    rw [List.length_cons] at enough
    cases depth with
    | zero => exact readValue_closed_iff (.inr rfl) (Nat.succ_pos _)
    | succ depth =>
      rw [readValue_object, skipSpace_of_spaces spaces (members_solid h), Outline.depth,
        Outline.value?, Nat.add_le_add_iff_right]
      exact map_read_iff (.object ∘ Members.ofPairs) fun pairs =>
        takes.object h (by omega) depth pairs es

theorem readItems_iff {vs : List Value} :
    readItems (fuel + 1) depth cs = some (vs, es) ↔
      ∃ v ds, readValue fuel depth cs = some (v, ds) ∧
        (skipSpace ds = ']' :: es ∧ vs = [v] ∨
          ∃ fs ws, skipSpace ds = ',' :: fs ∧
            readItems fuel depth (skipSpace fs) = some (ws, es) ∧ vs = v :: ws) := by
  rw [readItems]
  cases hv : readValue fuel depth cs with
  | none => simp
  | some found =>
    obtain ⟨v, ds⟩ := found
    simp only [Option.some.injEq, Prod.mk.injEq, exists_and_left, ↓existsAndEq, true_and]
    constructor
    · intro h
      split at h
      · rename_i close
        cases h
        exact .inl ⟨close, rfl⟩
      · rename_i fs comma
        obtain ⟨⟨ws, _⟩, hw, he⟩ := Option.map_eq_some_iff.mp h
        cases he
        exact .inr ⟨fs, comma, ws, hw, rfl⟩
      · cases h
    · rintro (⟨close, rfl⟩ | ⟨fs, comma, ws, hw, rfl⟩)
      · rw [close]
        rfl
      · rw [comma]
        simp only [hw, Option.map_some]

theorem readMembers_iff {pairs : List (String × Value)} {tail : List Char}
    (quote : cs = '"' :: tail) :
    readMembers (fuel + 1) depth cs = some (pairs, es) ↔
      ∃ name ds fs v gs, readString tail = some (name, ds) ∧ skipSpace ds = ':' :: fs ∧
        readValue fuel depth (skipSpace fs) = some (v, gs) ∧
        (skipSpace gs = '\x7d' :: es ∧ pairs = [(name, v)] ∨
          ∃ hs others, skipSpace gs = ',' :: hs ∧
            readMembers fuel depth (skipSpace hs) = some (others, es) ∧
              pairs = (name, v) :: others) := by
  subst quote
  rw [readMembers]
  constructor
  · intro h
    split at h
    · cases h
    · rename_i name ds key
      split at h
      · rename_i fs colon
        split at h
        · cases h
        · rename_i v gs value
          refine ⟨name, ds, fs, v, gs, key, colon, value, ?_⟩
          split at h
          · rename_i close
            cases h
            exact .inl ⟨close, rfl⟩
          · rename_i hs comma
            obtain ⟨⟨others, _⟩, ho, he⟩ := Option.map_eq_some_iff.mp h
            cases he
            exact .inr ⟨hs, others, comma, ho, rfl⟩
          · cases h
      · cases h
  · rintro ⟨name, ds, fs, v, gs, key, colon, value, ⟨close, rfl⟩ | ⟨hs, others, comma, ho, rfl⟩⟩
    · simp only [key, colon, value, close]
    · simp only [key, colon, value, comma, ho, Option.map_some]

theorem TakesAt.items_succ (takes : TakesAt fuel) (h : SpellsItems cs os rest)
    (enough : 3 * cs.length + 1 ≤ fuel + 1) (depth : Nat) (vs : List Value) (es : List Char) :
    readItems (fuel + 1) depth cs = some (vs, es) ↔
      es = rest ∧ Outline.itemDepth os ≤ depth ∧
        Outline.itemValues? Spelling.number? os = some vs := by
  rw [readItems_iff]
  cases h with
  | @last _ ds _ o h close =>
    have first := takes.value h (ends_of_separator close (by decide)) (by omega) depth
    have ended := skipSpace_of_cons close (by decide)
    simp only [first, Outline.itemValues?_cons_iff, Outline.itemDepth, Nat.max_zero]
    constructor
    · rintro ⟨v, _, ⟨rfl, shallow, value⟩, ⟨close, rfl⟩ | ⟨_, _, comma, _⟩⟩
      · rw [ended] at close
        cases close
        exact ⟨rfl, shallow, v, [], value, rfl, rfl⟩
      · rw [ended] at comma
        cases comma
    · rintro ⟨rfl, shallow, v, _, value, ⟨⟩, rfl⟩
      exact ⟨v, ds, ⟨rfl, shallow, value⟩, .inl ⟨ended, rfl⟩⟩
  | @more _ ds fs gs _ o os h comma spaces others =>
    have first := takes.value h (ends_of_separator comma (by decide)) (by omega) depth
    have separator := skipSpace_of_cons comma (by decide)
    have next := skipSpace_of_spaces spaces (items_begin others).1
    have := h.length_lt
    have := Skips.length_lt comma
    have := Skips.length_le spaces
    have behind := takes.items others (by omega) depth
    simp only [first, Outline.itemValues?_cons_iff, Outline.itemDepth, Nat.max_le]
    constructor
    · rintro ⟨v, _, ⟨rfl, here, value⟩, ⟨close, _⟩ | ⟨_, vs, comma, hvs, rfl⟩⟩
      · rw [separator] at close
        cases close
      · rw [separator] at comma
        cases comma
        rw [next] at hvs
        obtain ⟨rfl, there, values⟩ := (behind vs es).mp hvs
        exact ⟨rfl, ⟨here, there⟩, v, vs, value, values, rfl⟩
    · rintro ⟨rfl, ⟨here, there⟩, v, vs, value, values, rfl⟩
      refine ⟨v, ds, ⟨rfl, here, value⟩, .inr ⟨fs, vs, separator, ?_, rfl⟩⟩
      rw [next]
      exact (behind vs es).mpr ⟨rfl, there, values⟩

/-- A member of an object in front of what ends it. -/
theorem TakesAt.member (takes : TakesAt fuel) {m : List Mark × Outline}
    (h : SpellsMember cs m rest) (ends : Ends rest) (enough : 3 * cs.length ≤ fuel + 1)
    {tail : List Char} (quote : cs = '"' :: tail) (depth : Nat) (name : String) (v : Value)
    (es : List Char) :
    (∃ ds fs, readString tail = some (name, ds) ∧ skipSpace ds = ':' :: fs ∧
      readValue fuel depth (skipSpace fs) = some (v, es)) ↔
      es = rest ∧ name = textOf m.1 ∧ m.2.depth ≤ depth ∧
        m.2.value? Spelling.number? = some v := by
  subst quote
  obtain ⟨key, colon, spaces, h⟩ := h
  have named := readString_of_quoted key
  have separator := skipSpace_of_cons colon (by decide)
  have next := skipSpace_of_spaces spaces h.solid
  have := key.length_lt
  have := Skips.length_lt colon
  have := Skips.length_le spaces
  rw [List.length_cons] at enough
  have value := takes.value h ends (by omega) depth v es
  constructor
  · rintro ⟨ds, fs, hk, hs, hv⟩
    rw [named] at hk
    cases hk
    rw [separator] at hs
    cases hs
    rw [next] at hv
    obtain ⟨ended, shallow, hv⟩ := value.mp hv
    exact ⟨ended, rfl, shallow, hv⟩
  · rintro ⟨ended, rfl, shallow, hv⟩
    exact ⟨_, _, named, separator, next.symm ▸ value.mpr ⟨ended, shallow, hv⟩⟩

theorem TakesAt.members_succ (takes : TakesAt fuel) (h : SpellsMembers cs ms rest)
    (enough : 3 * cs.length + 1 ≤ fuel + 1) (depth : Nat) (pairs : List (String × Value))
    (es : List Char) :
    readMembers (fuel + 1) depth cs = some (pairs, es) ↔
      es = rest ∧ Outline.memberDepth ms ≤ depth ∧
        Outline.memberValues? Spelling.number? ms = some pairs := by
  obtain ⟨tail, quote⟩ := members_begin h
  rw [readMembers_iff quote]
  cases h with
  | @last _ gs _ m h close =>
    have first := takes.member h (ends_of_separator close (by decide)) (by omega) quote depth
    have ended := skipSpace_of_cons close (by decide)
    obtain ⟨key, o⟩ := m
    rw [Outline.memberValues?_cons_iff, Outline.memberDepth, Outline.memberDepth, Nat.max_zero]
    constructor
    · rintro ⟨name, ds, fs, v, _, hk, colon, hv, tail⟩
      obtain ⟨rfl, rfl, shallow, value⟩ := (first name v _).mp ⟨ds, fs, hk, colon, hv⟩
      rcases tail with ⟨close, rfl⟩ | ⟨_, _, comma, _⟩
      · rw [ended] at close
        cases close
        exact ⟨rfl, shallow, v, [], value, rfl, rfl⟩
      · rw [ended] at comma
        cases comma
    · rintro ⟨rfl, shallow, v, _, value, ⟨⟩, rfl⟩
      obtain ⟨ds, fs, hk, colon, hv⟩ := (first _ v gs).mpr ⟨rfl, rfl, shallow, value⟩
      exact ⟨_, ds, fs, v, _, hk, colon, hv, .inl ⟨ended, rfl⟩⟩
  | @more _ gs hs is _ m ms h comma spaces others =>
    have first := takes.member h (ends_of_separator comma (by decide)) (by omega) quote depth
    have separator := skipSpace_of_cons comma (by decide)
    have next : skipSpace hs = is := skipSpace_of_spaces spaces (members_solid others)
    have := h.length_lt
    have := Skips.length_lt comma
    have := Skips.length_le spaces
    have behind := takes.members others (by omega) depth
    obtain ⟨key, o⟩ := m
    rw [Outline.memberValues?_cons_iff, Outline.memberDepth, Nat.max_le]
    constructor
    · rintro ⟨name, ds, fs, v, _, hk, colon, hv, tail⟩
      obtain ⟨rfl, rfl, here, value⟩ := (first name v _).mp ⟨ds, fs, hk, colon, hv⟩
      rcases tail with ⟨close, _⟩ | ⟨_, pairs, comma, hp, rfl⟩
      · rw [separator] at close
        cases close
      · rw [separator] at comma
        cases comma
        rw [next] at hp
        obtain ⟨rfl, there, values⟩ := (behind pairs es).mp hp
        exact ⟨rfl, ⟨here, there⟩, v, pairs, value, values, rfl⟩
    · rintro ⟨rfl, ⟨here, there⟩, v, pairs, value, values, rfl⟩
      obtain ⟨ds, fs, hk, colon, hv⟩ := (first _ v gs).mpr ⟨rfl, rfl, here, value⟩
      refine ⟨_, ds, fs, v, _, hk, colon, hv, .inr ⟨_, pairs, separator, ?_, rfl⟩⟩
      rw [next]
      exact (behind pairs es).mpr ⟨rfl, there, values⟩

theorem TakesAt.object_succ (takes : TakesAt fuel) (h : SpellsMembers cs ms rest)
    (enough : 3 * cs.length + 2 ≤ fuel + 1) (depth : Nat) (pairs : List (String × Value))
    (es : List Char) :
    readObject (fuel + 1) depth cs = some (pairs, es) ↔
      es = rest ∧ Outline.memberDepth ms ≤ depth ∧
        Outline.memberValues? Spelling.number? ms = some pairs := by
  have first : ∀ ds, cs ≠ '\x7d' :: ds := by
    obtain ⟨_, start⟩ := members_begin h
    rw [start]
    nofun
  rw [readObject_succ first]
  exact takes.members h (by omega) depth pairs es

theorem takesAt (fuel : Nat) : TakesAt fuel := by
  induction fuel with
  | zero =>
    refine ⟨fun h _ enough => ?_, fun _ enough => ?_, fun _ enough => ?_, fun _ enough => ?_⟩
    · have := h.length_lt
      omega
    all_goals omega
  | succ fuel ih =>
    exact ⟨fun h ends enough => ih.value_succ h ends enough,
      fun h enough => ih.items_succ h enough, fun h enough => ih.members_succ h enough,
      fun h enough => ih.object_succ h enough⟩

end Steps

/-- The strict reader takes a text of the grammar if at most 127 containers stand in each other and
no numeral is too large, and then reads what the outline of the text says. -/
theorem ofJson?_eq_some_iff {s : String} {o : Outline} (h : Stands s.toList o []) :
    Value.ofJson? s = some v ↔ o.depth ≤ maxDepth ∧ o.value? Spelling.number? = some v := by
  obtain ⟨before, h, behind⟩ := h
  rename_i ds es
  have start := skipSpace_of_spaces before h.solid
  have ended : skipSpace es = [] := skipSpace_of_spaces behind nofun
  have := Skips.length_le before
  have taken := (takesAt (steps s.toList)).value h (Ends.spaces behind nofun)
    (by rw [steps]; omega) maxDepth
  rw [Value.ofJson?, read, readWithin, start]
  constructor
  · intro hv
    split at hv
    · rename_i found
      split at hv
      · cases hv
        exact ((taken _ _).mp found).2
      · cases hv
    · cases hv
  · intro hv
    rw [(taken v es).mpr ⟨rfl, hv⟩]
    simp [ended]

end Json

end CommandContract
