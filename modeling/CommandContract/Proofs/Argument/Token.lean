import CommandContract.Argument.Token
import CommandContract.Proofs.Json.Printing
import CommandContract.Proofs.Text.Class

set_option autoImplicit false

/-!
# Compact text as an argument

What the value of an argument is whose text is the compact text of a value. A word, a list and an
object are read as they are anywhere else. A number is read as a numeral typed by hand. A string is
read as it was if its control characters have letters that quoted arguments know.
-/
namespace CommandContract.Argument

open Json (Spelling IsDigits Exponent)
open Text (isDecimalDigit Run run_iff)

variable {cs : List Char} {c : Char}

/-! ## Strings -/

/-- The control characters in a text are line ends and tabs. -/
def Typeable (cs : List Char) : Prop :=
  ∀ c ∈ cs, c.toNat < 0x20 → c = '\n' ∨ c = '\r' ∨ c = '\t'

theorem unescape_escapeChar (h : c.toNat < 0x20 → c = '\n' ∨ c = '\r' ∨ c = '\t')
    (cs : List Char) : unescape (Json.escapeChar c ++ cs) = c :: unescape cs := by
  by_cases quote : c = '"'
  · subst quote
    simp [Json.escapeChar, unescape]
  by_cases bare : c = '\\'
  · subst bare
    simp [Json.escapeChar, unescape]
  by_cases control : c.toNat < 0x20
  · rcases h control with rfl | rfl | rfl <;> simp [Json.escapeChar, unescape]
  · rw [Json.escapeChar_of_printed quote bare (Nat.not_lt.mp control), List.singleton_append]
    simp [unescape, bare]

theorem unescape_escape (h : Typeable cs) : unescape (cs.flatMap Json.escapeChar) = cs := by
  induction cs with
  | nil => rfl
  | cons c cs ih =>
    obtain ⟨first, others⟩ := List.forall_mem_cons.mp h
    rw [List.flatMap_cons, unescape_escapeChar first, ih others]

theorem unquote?_between (quote : c = '"' ∨ c = '\'') (raw : List Char) :
    unquote? (c :: (raw ++ [c])) = some (unescape raw) := by
  have last : (raw ++ [c]).getLast? = some c := List.getLast?_concat
  rw [unquote?, if_pos ⟨quote, last⟩, List.dropLast_concat]

theorem unquote?_quoted {s : String} (h : Typeable s.toList) :
    unquote? (Json.quoted s) = some s.toList := by
  rw [Json.quoted, unquote?_between (.inl rfl), unescape_escape h]

theorem unquote?_of_ne (double : c ≠ '"') (single : c ≠ '\'') (cs : List Char) :
    unquote? (c :: cs) = none := by
  rw [unquote?, if_neg]
  exact fun h => h.1.elim double single

/-! ## Words -/

theorem wordValue?_of_not_mem (h : c ∉ ['t', 'f', 'n', 'u']) (cs : List Char) :
    Literal.wordValue? (String.ofList (c :: cs)) = none := by
  have other : ∀ word : String, (∀ d ∈ word.toList.head?, d ∈ ['t', 'f', 'n', 'u']) →
      String.ofList (c :: cs) ≠ word := by
    rintro word begins rfl
    rw [String.toList_ofList] at begins
    exact h (begins c rfl)
  have t := other "true" (by rintro _ ⟨⟩; decide)
  have f := other "false" (by rintro _ ⟨⟩; decide)
  have n := other "null" (by rintro _ ⟨⟩; decide)
  have u := other "undefined" (by rintro _ ⟨⟩; decide)
  rw [Literal.wordValue?, if_neg t, if_neg f, if_neg (not_or.mpr ⟨n, u⟩)]

/-! ## Numbers -/

theorem span_decimalDigits {rest : List Char} (all : ∀ c ∈ cs, c.isDigit = true)
    (ended : ∀ c ∈ rest.head?, isDecimalDigit c = false) :
    (cs ++ rest).span isDecimalDigit = (cs, rest) :=
  run_iff.mp ⟨rfl, fun c hc => Text.isDecimalDigit_of_isDigit (all c hc), ended⟩

theorem isDecimalDigit_mark {e : Exponent} (h : e.Valid) : isDecimalDigit e.mark = false := by
  rcases h.mark with hm | hm <;> rw [hm] <;> decide

theorem isDecimalDigit_tail {t : Spelling} (h : t.Valid) :
    ∀ c ∈ ((t.exponent.map Exponent.text).getD []).head?, isDecimalDigit c = false := by
  cases he : t.exponent with
  | none => nofun
  | some e =>
    rintro c ⟨⟩
    exact isDecimalDigit_mark (h.exponent e he)

/-- Behind the sign of an exponent, if it has one, there are digits. -/
theorem digits_of_exponent {e : Exponent} (h : e.Valid) :
    let digits :=
      match e.sign.toList ++ e.digits with
      | '+' :: r => r
      | '-' :: r => r
      | r => r
    ¬ digits = [] ∧ ∀ c ∈ digits, isDecimalDigit c = true := by
  obtain ⟨mark, sign, digits⟩ := e
  have all : ∀ c ∈ digits, isDecimalDigit c = true :=
    fun c hc => Text.isDecimalDigit_of_isDigit (h.digits.2 c hc)
  rcases h.sign with rfl | rfl | rfl
  · obtain ⟨c, cs, rfl⟩ := List.exists_cons_of_ne_nil h.digits.1
    have digit := h.digits.2 c List.mem_cons_self
    have plus : c ≠ '+' := by
      rintro rfl
      cases digit
    have minus : c ≠ '-' := by
      rintro rfl
      cases digit
    simpa [plus, minus] using all
  · exact ⟨h.digits.1, all⟩
  · exact ⟨h.digits.1, all⟩

/-- What stands behind the digits of a numeral is an exponent, if it is anything. -/
theorem tail_of_exponent {power : Option Exponent} (h : ∀ e ∈ power, e.Valid) :
    (match (power.map Exponent.text).getD [] with
      | [] => true
      | e :: rest =>
        (e = 'e' || e = 'E') &&
          let digits :=
            match rest with
            | '+' :: r => r
            | '-' :: r => r
            | r => r
          !digits.isEmpty && digits.all isDecimalDigit) = true := by
  cases power with
  | none => rfl
  | some e =>
    have valid := h e rfl
    simp only [Option.map_some, Option.getD_some, Exponent.text, Bool.and_eq_true, Bool.or_eq_true,
      decide_eq_true_eq, valid.mark, true_and, Bool.not_eq_true', List.isEmpty_eq_false_iff,
      List.all_eq_true]
    exact digits_of_exponent valid

theorem tail_ne_point {power : Option Exponent} (h : ∀ e ∈ power, e.Valid) :
    ∀ cs, (power.map Exponent.text).getD [] ≠ '.' :: cs := by
  cases power with
  | none => exact nofun
  | some e =>
    rintro cs he
    have point : e.mark = '.' := (List.cons.inj he).1
    rcases (h e rfl).mark with hm | hm <;> rw [hm] at point <;> cases point

/-- What stands behind the sign of a numeral. -/
theorem dropLeading?_text {t : Spelling} (h : t.Valid) :
    (Text.dropLeading? ['-'] t.text).getD t.text =
      t.whole ++ (Spelling.pointed t.fraction ++ (t.exponent.map Exponent.text).getD []) := by
  obtain ⟨negative, digits, behind, power⟩ := t
  cases negative with
  | true => simp [Spelling.text, Text.dropLeading?]
  | false =>
    have whole : IsDigits digits := h.whole
    obtain ⟨c, cs, rfl⟩ := List.exists_cons_of_ne_nil whole.1
    have minus : '-' ≠ c := by
      rintro rfl
      cases whole.2 _ List.mem_cons_self
    simp [Spelling.text, Text.dropLeading?, minus]

theorem hasNumeralShape_text {t : Spelling} (h : t.Valid) : hasNumeralShape t.text = true := by
  have unsigned := dropLeading?_text h
  obtain ⟨negative, digits, behind, power⟩ := t
  have whole : IsDigits digits := h.whole
  have ended : ∀ c ∈ ((power.map Exponent.text).getD []).head?, isDecimalDigit c = false :=
    isDecimalDigit_tail h
  have fraction : ∀ c ∈ behind, c.isDigit = true := h.fraction
  have exponent : ∀ e ∈ power, e.Valid := h.exponent
  have stop : ∀ c ∈ (Spelling.pointed behind ++ (power.map Exponent.text).getD []).head?,
      isDecimalDigit c = false := by
    cases behind with
    | nil => exact ended
    | cons d ds =>
      rintro c ⟨⟩
      decide
  unfold hasNumeralShape
  rw [unsigned]
  dsimp only
  rw [span_decimalDigits whole.2 stop]
  dsimp only
  have tail := tail_of_exponent exponent
  cases behind with
  | nil =>
    rw [Spelling.pointed, if_pos rfl, List.nil_append]
    split
    · rename_i rest he
      exact absurd he (tail_ne_point exponent rest)
    · rw [whole.isEmpty]
      exact tail
  | cons d ds =>
    simp only [Spelling.pointed, reduceCtorEq, if_false, List.cons_append]
    rw [← List.cons_append, span_decimalDigits fraction ended, List.isEmpty_cons, Bool.and_false]
    exact tail

/-- A token that begins with a bracket is no numeral. -/
theorem number?_of_bracket (h : c = '[' ∨ c = '\x7b') (cs : List Char) :
    number? (c :: cs) = none := by
  have shapeless : hasNumeralShape (c :: cs) = false := by
    rcases h with rfl | rfl <;> rfl
  rw [number?, shapeless]
  rfl

/-! ## Values -/

theorem tokenValue_compact (v : Value) : tokenValue v.compact.toList =
    match unquote? v.compact.toList with
    | some s => .string (String.ofList s)
    | none => bareValue v.compact.toList := by
  have whole : Text.trim v.compact.toList = v.compact.toList := Text.trim_of_tight v.tight_compact
  cases found : unquote? v.compact.toList with
  | none => simp [tokenValue, whole, found]
  | some s => simp [tokenValue, whole, found]

theorem tokenValue_string {s : String} (h : Typeable s.toList) :
    tokenValue (Value.string s).compact.toList = .string s := by
  have text : (Value.string s).compact.toList = Json.quoted s := String.toList_ofList
  rw [tokenValue_compact, text, unquote?_quoted h]
  exact congrArg Value.string String.ofList_toList

theorem tokenValue_number {n m : Number} (h : Number.ofNumeral? n.text = some m) :
    tokenValue (Value.number n).compact.toList = .number m := by
  have text : (Value.number n).compact.toList = n.text := String.toList_ofList
  have shape : hasNumeralShape n.text = true := by
    rw [← n.text_spelling]
    exact hasNumeralShape_text n.valid_spelling
  have numeral : number? n.text = some m := by rw [number?, if_pos shape, h]
  obtain ⟨c, cs, split, start⟩ := n.looksNumeral_text.1
  rw [tokenValue_compact, text, split, unquote?_of_ne (ne_of_isNumeralStart start rfl)
    (ne_of_isNumeralStart start rfl)]
  dsimp only
  have word : c ∉ ['t', 'f', 'n', 'u'] := Text.not_mem_of_any (by decide) start
  rw [bareValue, wordValue?_of_not_mem word, ← split, numeral]

/-- The value of a list or an object is what a literal of the same text is. -/
theorem tokenValue_of_bracket {v w : Value} (bracket : c = '[' ∨ c = '\x7b')
    (text : v.compact.toList = c :: cs) (h : Literal.parseJsonFirst v.compact = .ok w) :
    tokenValue v.compact.toList = w := by
  have container : container? (c :: cs) = some w := by
    rcases bracket with rfl | rfl <;> rw [container?, ← text, String.ofList_toList, h] <;> rfl
  have quotes : c ≠ '"' ∧ c ≠ '\'' := by rcases bracket with rfl | rfl <;> decide
  have word : c ∉ ['t', 'f', 'n', 'u'] := by rcases bracket with rfl | rfl <;> decide
  rw [tokenValue_compact, text, unquote?_of_ne quotes.1 quotes.2]
  dsimp only
  rw [bareValue, wordValue?_of_not_mem word, number?_of_bracket bracket, container]
  rfl

end CommandContract.Argument
