import CommandContract.Proofs.Argument.Token
import CommandContract.Proofs.Condition.Reported
import CommandContract.Proofs.Literal.Strict

set_option autoImplicit false

/-!
# Numbers in conditions

A number is compared with its own printed form. The scan for a number in a condition stops at a
sign, and the exponent of a printed number always has one. So a number without an exponent equals
its printed form, a number with one makes the condition malformed, and elsewhere both forms are
read: `evaluate_numeral`.
-/
namespace CommandContract.Condition

open Json (Exponent IsDigits Spelling)
open Text (Tight run_iff)

variable {cs ds rest : List Char} {p : String} {n m : Number} {t : Spelling} {f : Fault}

/-! ## Operands and signs -/

/-- A text that is one path in a condition: a word, or anything between braces. -/
inductive Names : List Char → String → Prop
  | word {c : Char} {tail : List Char} (start : Literal.isWordStart c = true)
      (all : ∀ d ∈ tail, isWordChar d = true) (free : ¬ Reserved (String.ofList (c :: tail))) :
      Names (c :: tail) (String.ofList (c :: tail))
  | braces {inner : List Char} (first : ¬ ['\x7d', '\x7d'] <:+: inner ++ ['\x7d']) :
      Names ('\x7b' :: '\x7b' :: (inner ++ ['\x7d', '\x7d'])) (String.ofList (Text.trim inner))

theorem Names.takes (h : Names cs p) (stop : ∀ c ∈ rest.head?, isWordChar c = false) :
    Takes (cs ++ rest) (.path p) rest := by
  cases h with
  | word start all free => exact .lexeme (.path start all free) stop
  | @braces inner first =>
    have whole := Takes.braces rest first
    simpa using whole

theorem blank_space : Text.isBlank ' ' = true := by decide

theorem Names.spaced (h : Names cs p) (rest : List Char) :
    Takes (cs ++ ' ' :: rest) (.path p) (' ' :: rest) := by
  refine h.takes ?_
  rintro c ⟨⟩
  decide

theorem Lexeme.spaced {text : List Char} {u : Token} {more : Char → Bool} (h : Lexeme text u more)
    (rest : List Char) : Takes (text ++ ' ' :: rest) u (' ' :: rest) := by
  refine .lexeme h ?_
  rintro c ⟨⟩
  exact h.more_isBlank blank_space

theorem lexeme_eq : Lexeme ['=', '='] (.comparison .eq) isEquals := .sign (by simp [signs])

theorem lexeme_le : Lexeme ['<', '='] (.comparison .le) never := .sign (by simp [signs])

theorem Names.tight (h : Names cs p) : Tight cs := by
  cases h with
  | word start all _ => exact tight_word start all
  | @braces inner _ =>
    have solid : Text.isBlank '\x7b' = false ∧ Text.isBlank '\x7d' = false := by decide
    have whole := Text.tight_between solid.1 solid.2 ('\x7b' :: (inner ++ ['\x7d']))
    simpa using whole

/-! ## Faults of the scan -/

/-- The scan for tokens comes to a fault. -/
def Breaks (cs : List Char) (f : Fault) : Prop :=
  ∀ fuel, cs.length ≤ fuel → tokensFrom fuel cs = .error f

theorem breaks_of_nextToken {c : Char} (solid : Text.isBlank c = false)
    (h : nextToken c cs = .error f) : Breaks (c :: cs) f := by
  intro fuel enough
  cases fuel with
  | zero => cases enough
  | succ fuel =>
    rw [tokensFrom, solid, if_neg Bool.false_ne_true, h]
    rfl

theorem Breaks.blank {c : Char} (blank : Text.isBlank c = true) (h : Breaks cs f) :
    Breaks (c :: cs) f := by
  intro fuel enough
  cases fuel with
  | zero => cases enough
  | succ fuel =>
    rw [tokensFrom, if_pos blank]
    exact h fuel (Nat.le_of_succ_le_succ enough)

theorem Breaks.token {u : Token} (h : Takes cs u rest) (more : Breaks rest f) : Breaks cs f := by
  intro fuel enough
  have shorter := h.length_lt
  cases cs with
  | nil => exact absurd shorter (Nat.not_lt_zero _)
  | cons c cs =>
    cases fuel with
    | zero => cases enough
    | succ fuel =>
      have left : rest.length ≤ fuel := by
        rw [List.length_cons] at shorter enough
        omega
      rw [tokensFrom, h.head, if_neg Bool.false_ne_true, nextToken_of_takes h]
      simp only [bind, Except.bind, more fuel left]

/-! ## Numerals -/

/-- A digit stands in front of everything but a minus. -/
theorem exists_numberStart (negative : Bool) (digits : IsDigits ds) (rest : List Char) :
    ∃ c tail, (if negative then ['-'] else []) ++ (ds ++ rest) = c :: tail ∧
      NumberStart (c :: tail) ∧ ∀ d ∈ tail, d ∈ ds ++ rest := by
  obtain ⟨d, ds, rfl⟩ := List.exists_cons_of_ne_nil digits.1
  have digit := digits.2 d List.mem_cons_self
  cases negative with
  | true => exact ⟨'-', d :: (ds ++ rest), rfl, .minus digit, fun _ h => h⟩
  | false => exact ⟨d, ds ++ rest, rfl, .digit digit, fun _ h => List.mem_cons_of_mem d h⟩

theorem isNumberChar_digits (h : ∀ c ∈ cs, c.isDigit = true) : ∀ c ∈ cs, isNumberChar c = true :=
  fun c hc => isNumberChar_of_isDigit (h c hc)

theorem isNumberChar_pointed (h : ∀ c ∈ cs, c.isDigit = true) :
    ∀ c ∈ Spelling.pointed cs, isNumberChar c = true := by
  unfold Spelling.pointed
  split
  · exact nofun
  · exact List.forall_mem_cons.mpr ⟨rfl, isNumberChar_digits h⟩

theorem isNumberChar_mark {e : Exponent} (h : e.Valid) : isNumberChar e.mark = true := by
  rcases h.mark with hm | hm <;> rw [hm] <;> rfl

/-- A numeral is one token if its exponent has no sign. -/
theorem lexeme_numeral (valid : t.Valid) (unsigned : ∀ e ∈ t.exponent, e.sign = none)
    (value : Number.ofNumeral? t.text = some n) :
    Lexeme t.text (.literal (.number n)) isNumberChar := by
  obtain ⟨c, tail, text, start, within⟩ := exists_numberStart t.negative valid.whole
    (Spelling.pointed t.fraction ++ (t.exponent.map Exponent.text).getD [])
  have exponent : ∀ c ∈ (t.exponent.map Exponent.text).getD [], isNumberChar c = true := by
    cases he : t.exponent with
    | none => exact nofun
    | some e =>
      have whole := valid.exponent e he
      simp only [Option.map_some, Option.getD_some, Exponent.text, unsigned e he,
        Option.toList_none, List.nil_append]
      exact List.forall_mem_cons.mpr ⟨isNumberChar_mark whole, isNumberChar_digits whole.digits.2⟩
  have all := List.forall_mem_append.mpr ⟨isNumberChar_digits valid.whole.2,
    List.forall_mem_append.mpr ⟨isNumberChar_pointed valid.fraction, exponent⟩⟩
  rw [Spelling.text] at value ⊢
  rw [text] at value ⊢
  exact .number start (fun d hd => all d (within d hd)) value

/-- The digits of a numeral, up to the letter of its exponent. -/
def cutNumeral (t : Spelling) (e : Exponent) : List Char :=
  (if t.negative then ['-'] else []) ++ (t.whole ++ (Spelling.pointed t.fraction ++ [e.mark]))

/-- Up to the letter of its exponent, a numeral is no number. -/
theorem ofNumeral?_cutNumeral (valid : t.Valid) {e : Exponent} (he : t.exponent = some e) :
    Number.ofNumeral? (cutNumeral t e) = none := by
  have letter := (valid.exponent e he).mark
  have other : e.mark.isDigit = false ∧ e.mark ≠ '.' ∧ e.mark ≠ '-' ∧ e.mark ≠ '+' := by
    rcases letter with hm | hm <;> rw [hm] <;> decide
  have inside : e.mark ∈ cutNumeral t e := by simp [cutNumeral]
  have whole := Decimal.integer?_of_mem inside other.1 other.2.2.1 other.2.2.2
  have bare : Spelling.exponent? [e.mark] = none := by
    rw [Spelling.exponent?, if_pos letter]
    rfl
  have decimal : Decimal.ofText? (cutNumeral t e) = none := by
    rw [cutNumeral, Spelling.ofText?_digits valid.whole valid.fraction, bare]
    · rfl
    · rintro c ⟨⟩
      exact ⟨other.1, other.2.1⟩
  rw [Number.ofNumeral?, signedInteger?, whole, finiteBinary?, decimal]
  rfl

theorem breaks_cutNumeral (valid : t.Valid) {e : Exponent} (he : t.exponent = some e)
    (stop : ∀ c ∈ rest.head?, isNumberChar c = false) :
    Breaks (cutNumeral t e ++ rest) (.invalidNumber (String.ofList (cutNumeral t e))) := by
  obtain ⟨c, tail, text, start, within⟩ := exists_numberStart t.negative valid.whole
    (Spelling.pointed t.fraction ++ [e.mark])
  have mark := isNumberChar_mark (valid.exponent e he)
  have all := List.forall_mem_append.mpr ⟨isNumberChar_digits valid.whole.2,
    List.forall_mem_append.mpr ⟨isNumberChar_pointed valid.fraction,
      List.forall_mem_singleton.mpr mark⟩⟩
  have none := ofNumeral?_cutNumeral valid he
  have solid : Text.isBlank c = false := by
    cases start with
    | digit digit => exact isBlank_of_isNumberChar (isNumberChar_of_isDigit digit)
    | minus => decide
  rw [cutNumeral, text] at none ⊢
  rw [List.cons_append]
  refine breaks_of_nextToken solid ?_
  rw [nextToken_of_numberStart (start.append rest), readNumber,
    run_iff.mp ⟨rfl, fun d hd => all d (within d hd), stop⟩]
  simp only [none]

/-! ## Conditions -/

theorem unwrap_of_last (h : ∀ c ∈ cs.getLast?, c ≠ '\x7d') : unwrap cs = cs := by
  have bare : ∀ inner, Text.dropLeading? ['\x7b', '\x7b'] cs = some inner →
      Text.dropTrailing? ['\x7d', '\x7d'] inner = none := by
    intro inner lead
    have behind : inner <:+ cs := by
      unfold Text.dropLeading? at lead
      split at lead
      · cases lead
        exact List.drop_suffix _ _
      · cases lead
    rw [Text.dropTrailing?, if_neg]
    intro trail
    obtain ⟨front, rfl⟩ := (List.isSuffixOf_iff_suffix.mp trail).trans behind
    exact h '\x7d' (by simp) rfl
  rw [unwrap]
  cases lead : Text.dropLeading? ['\x7b', '\x7b'] cs with
  | none => rfl
  | some inner => simp only [Option.bind_some, bare inner lead]

theorem source_of_tight (tight : Tight cs) (bare : unwrap cs = cs) :
    source (String.ofList cs) = cs := by
  rw [source, String.toList_ofList, Text.trim_of_tight tight, bare]

theorem evaluate_compare {a b : Operand} {op : Comparison} (whole : source (String.ofList cs) = cs)
    (full : cs ≠ []) (lexes : Lexes cs [a.token, .comparison op, b.token]) (context : Value) :
    evaluate (String.ofList cs) context = .ok (op.holds (a.value context) (b.value context)) := by
  have denotes : Denotes cs (.compare op a b) :=
    ⟨_, lexes, .joined (.single (.compare op a b))⟩
  rw [evaluate_eq_ok_iff (whole.symm ▸ full), whole]
  exact ⟨_, denotes, rfl⟩

theorem evaluate_of_breaks (whole : source (String.ofList cs) = cs) (breaks : Breaks cs f)
    (context : Value) : evaluate (String.ofList cs) context = .error ⟨String.ofList cs, f⟩ := by
  refine evaluate_faulty_iff.mpr ⟨rfl, .cut ?_⟩
  rw [whole]
  exact breaks _ (Nat.le_refl _)

/-- The path equals the number. -/
def equalText (word : List Char) (n : Number) : List Char := word ++ [' ', '=', '=', ' '] ++ n.text

/-- The number is at most what the path leads to. -/
def belowText (n : Number) (word : List Char) : List Char := n.text ++ [' ', '<', '=', ' '] ++ word

theorem tight_text (n : Number) : Tight n.text := by
  have tight := (Value.number n).tight_compact
  rwa [Value.compact, String.toList_ofList] at tight

theorem tight_equalText (h : Names cs p) (n : Number) : Tight (equalText cs n) :=
  h.tight.append _ (tight_text n)

theorem tight_belowText (n : Number) (h : Names cs p) : Tight (belowText n cs) :=
  (tight_text n).append _ h.tight

theorem source_equalText (h : Names cs p) (n : Number) :
    source (String.ofList (equalText cs n)) = equalText cs n := by
  refine source_of_tight (tight_equalText h n) (unwrap_of_last fun c hc => ?_)
  rw [equalText, List.getLast?_append_of_ne_nil _ (tight_text n).ne_nil] at hc
  rintro rfl
  exact absurd (n.looksNumeral_text.2 _ (List.mem_of_getLast? hc)) (by decide)

theorem source_belowText (n : Number) (h : Names cs p) :
    source (String.ofList (belowText n cs)) = belowText n cs := by
  refine source_of_tight (tight_belowText n h) (unwrap_of_head fun c hc => ?_)
  rw [belowText, List.append_assoc, List.head?_append_of_ne_nil _ (tight_text n).ne_nil] at hc
  rintro rfl
  exact absurd (n.looksNumeral_text.2 _ (List.mem_of_mem_head? hc)) (by decide)

/-! ## Without an exponent -/

theorem lexeme_text (plain : 'e' ∉ n.text) (value : Number.ofNumeral? n.text = some m) :
    Lexeme n.text (.literal (.number m)) isNumberChar := by
  have unsigned : ∀ e ∈ n.spelling.exponent, e.sign = none := fun e he =>
    absurd (n.mem_text_iff.mpr ⟨e, he⟩) plain
  rw [← n.text_spelling] at value ⊢
  exact lexeme_numeral n.valid_spelling unsigned value

theorem lexes_equalText (h : Names cs p)
    (number : Lexeme n.text (.literal (.number m)) isNumberChar) :
    Lexes (equalText cs n)
      [(Operand.path p).token, .comparison .eq, (Operand.literal (.number m)).token] := by
  have last : Takes (n.text ++ []) (.literal (.number m)) [] := .lexeme number nofun
  rw [List.append_nil] at last
  rw [equalText, List.append_assoc]
  exact .token (h.spaced _) <| .blank blank_space <| .token (lexeme_eq.spaced n.text) <|
    .blank blank_space <| .token last .nil

theorem lexes_belowText (h : Names cs p)
    (number : Lexeme n.text (.literal (.number m)) isNumberChar) :
    Lexes (belowText n cs)
      [(Operand.literal (.number m)).token, .comparison .le, (Operand.path p).token] := by
  have last : Takes (cs ++ []) (.path p) [] := h.takes nofun
  rw [List.append_nil] at last
  rw [belowText, List.append_assoc]
  exact .token (number.spaced _) <| .blank blank_space <| .token (lexeme_le.spaced cs) <|
    .blank blank_space <| .token last .nil

/-! ## With an exponent -/

/-- What the scan takes of a printed number that has an exponent. -/
theorem exists_cut (exponent : 'e' ∈ n.text) : ∃ front behind, n.text = front ++ 'e' :: behind ∧
    ∀ rest, Breaks (n.text ++ rest) (.invalidNumber (String.ofList (front ++ ['e']))) := by
  obtain ⟨e, he⟩ := n.mem_text_iff.mp exponent
  obtain ⟨mark, sign⟩ := Number.exponent_spelling he
  have text : n.text = cutNumeral n.spelling e ++ (e.sign.toList ++ e.digits) := by
    rw [← n.text_spelling, Spelling.text, he, cutNumeral]
    simp [Exponent.text]
  have cut : cutNumeral n.spelling e = (if n.spelling.negative then ['-'] else []) ++
      (n.spelling.whole ++ Spelling.pointed n.spelling.fraction) ++ ['e'] := by
    rw [cutNumeral, mark]
    simp
  refine ⟨_, e.sign.toList ++ e.digits, by rw [text, cut, List.append_assoc]; rfl, fun rest => ?_⟩
  have stop : ∀ c ∈ (e.sign.toList ++ e.digits ++ rest).head?, isNumberChar c = false := by
    rcases sign with hs | hs <;> rw [hs] <;> rintro c ⟨⟩ <;> rfl
  rw [← cut, text, List.append_assoc]
  exact breaks_cutNumeral n.valid_spelling he stop

theorem breaks_equalText (h : Names cs p) (breaks : ∀ rest, Breaks (n.text ++ rest) f) :
    Breaks (equalText cs n) f := by
  have last := breaks []
  rw [List.append_nil] at last
  rw [equalText, List.append_assoc]
  exact .token (h.spaced _) <| .blank blank_space <| .token (lexeme_eq.spaced n.text) <|
    .blank blank_space last

theorem breaks_belowText (breaks : ∀ rest, Breaks (n.text ++ rest) f) :
    Breaks (belowText n cs) f := by
  rw [belowText, List.append_assoc]
  exact breaks _

/-! ## The law -/

/-- The two conditions that compare a path with a printed number. -/
def comparisons (word : List Char) (n : Number) : List (List Char) :=
  [equalText word n, belowText n word]

theorem evaluate_plain {context : Value} (h : Names cs p)
    (found : context.lookup? p = some (.number n)) (plain : 'e' ∉ n.text)
    (value : Number.ofNumeral? n.text = some m) (same : m.toBinary.same n.toBinary = true) :
    ∀ text ∈ comparisons cs n, evaluate (String.ofList text) context = .ok true := by
  have number := lexeme_text plain value
  have units : m.toBinary.units = n.toBinary.units := beq_iff_eq.mp same
  have leads : (Operand.path p).value context = .number n := by rw [Operand.value, found]; rfl
  refine List.forall_mem_cons.mpr ⟨?_, List.forall_mem_singleton.mpr ?_⟩
  · rw [evaluate_compare (source_equalText h n) (tight_equalText h n).ne_nil
      (lexes_equalText h number) context, leads]
    refine congrArg _ ?_
    exact beq_iff_eq.mpr units.symm
  · rw [evaluate_compare (source_belowText n h) (tight_belowText n h).ne_nil
      (lexes_belowText h number) context, leads]
    refine congrArg _ ?_
    change (compare m.toBinary.units n.toBinary.units).isLE = true
    rw [Std.LawfulEqOrd.compare_eq_iff_eq.mpr units]
    rfl

theorem evaluate_exponent (h : Names cs p) (exponent : 'e' ∈ n.text) :
    ∃ front behind, n.text = front ++ 'e' :: behind ∧
      ∀ text ∈ comparisons cs n, ∀ context, evaluate (String.ofList text) context =
        .error ⟨String.ofList text, .invalidNumber (String.ofList (front ++ ['e']))⟩ := by
  obtain ⟨front, behind, split, breaks⟩ := exists_cut exponent
  refine ⟨front, behind, split, List.forall_mem_cons.mpr ⟨?_, List.forall_mem_singleton.mpr ?_⟩⟩
  · exact evaluate_of_breaks (source_equalText h n) (breaks_equalText h breaks)
  · exact evaluate_of_breaks (source_belowText n h) (breaks_belowText breaks)

/-- The reader of literals and the reader of arguments take a printed number as it is typed. -/
theorem readers_number (value : Number.ofNumeral? n.text = some m) :
    Literal.parse (Value.number n).compact = .ok (.number m) ∧
      Argument.tokenValue (Value.number n).compact.toList = .number m := by
  refine ⟨?_, Argument.tokenValue_number value⟩
  rw [Literal.parse_eq_ok_iff_value? (Json.stands_compact _) (Json.unpaired_outline _)]
  rw [Number.ofNumeral?_text] at value
  rw [Value.outline, Json.Outline.value?, value]
  rfl

theorem comparisons_text (word : String) (n : Number) :
    [word ++ " == " ++ (Value.number n).compact, (Value.number n).compact ++ " <= " ++ word] =
      (comparisons word.toList n).map String.ofList := by
  have text : (Value.number n).compact.toList = n.text := String.toList_ofList
  have equal : word ++ " == " ++ (Value.number n).compact =
      String.ofList (equalText word.toList n) := by
    rw [← String.toList_inj]
    simp [equalText, text]
  have below : (Value.number n).compact ++ " <= " ++ word =
      String.ofList (belowText n word.toList) := by
    rw [← String.toList_inj]
    simp [belowText, text]
  rw [equal, below]
  rfl

theorem evaluate_numeral {word : String} {context : Value} (held : n.Held) (back : n.ReadsBack)
    (names : Names word.toList p) (found : context.lookup? p = some (.number n)) :
    (∀ text ∈ [word ++ " == " ++ (Value.number n).compact,
        (Value.number n).compact ++ " <= " ++ word],
      (evaluate text context = .ok true ↔ 'e' ∉ (Value.number n).compact.toList) ∧
      ('e' ∈ (Value.number n).compact.toList → ∃ front behind,
        (Value.number n).compact.toList = front ++ 'e' :: behind ∧
        evaluate text context =
          .error ⟨text, .invalidNumber (String.ofList (front ++ ['e']))⟩)) ∧
    ∃ m : Number, m.toBinary.same n.toBinary = true ∧
      Literal.parse (Value.number n).compact = .ok (.number m) ∧
      Argument.tokenValue (Value.number n).compact.toList = .number m := by
  obtain ⟨m, value, same⟩ := held.exists_typed back
  have text : (Value.number n).compact.toList = n.text := String.toList_ofList
  refine ⟨?_, m, same, readers_number value⟩
  rw [comparisons_text, text, List.forall_mem_map]
  intro condition listed
  by_cases exponent : 'e' ∈ n.text
  · obtain ⟨front, behind, split, refused⟩ := evaluate_exponent names exponent
    have error := refused condition listed context
    refine ⟨iff_of_false ?_ (not_not.mpr exponent), fun _ => ⟨front, behind, split, error⟩⟩
    rw [error]
    exact nofun
  · have holds := evaluate_plain names found exponent value same condition listed
    exact ⟨iff_of_true holds exponent, fun inside => absurd inside exponent⟩

/-- The binary number nearest to the ten-millionth part of one. -/
def tenMillionth : Number := .float ⟨false, 7555786372591432, -76⟩

/-- A number with an exponent in print, and one without. -/
def measured : Value := .object [("p", .number tenMillionth), ("q", .int 18446744073709551615)]

theorem tenMillionth_compact : (Value.number tenMillionth).compact = "1e-7" := by decide +kernel

theorem evaluate_numeral_measured :
    tenMillionth.Held ∧ tenMillionth.ReadsBack ∧
    measured.lookup? "p" = some (.number tenMillionth) ∧
    (∀ text ∈ ["p == 1e-7", "1e-7 <= p"], ¬ evaluate text measured = .ok true) ∧
    ∀ text ∈ ["q == 18446744073709551615", "18446744073709551615 <= q"],
      evaluate text measured = .ok true := by
  have held : tenMillionth.Held := ⟨by decide, by decide⟩
  have native : tenMillionth.Native := by decide
  have back : tenMillionth.ReadsBack := native.readsBack
  have free : ∀ word : String, word ∉ Literal.keywords.map (·.1) → ¬ Reserved word :=
    fun word h ⟨_, known⟩ => h (List.mem_map_of_mem known)
  have p : Names "p".toList "p" := .word rfl nofun (free _ (by decide))
  have q : Names "q".toList "q" := .word rfl nofun (free _ (by decide))
  have tiny : measured.lookup? "p" = some (.number tenMillionth) := rfl
  have huge : measured.lookup? "q" = some (.number (.int 18446744073709551615)) := rfl
  refine ⟨held, back, tiny, fun text listed holds => ?_, fun text listed => ?_⟩
  · have law := (evaluate_numeral held back p tiny).1
    rw [tenMillionth_compact] at law
    exact (law text listed).1.mp holds (by decide)
  · have top : (Number.int 18446744073709551615).Held := .inr (by decide)
    have whole : (Number.int 18446744073709551615).ReadsBack := nofun
    have law := (evaluate_numeral top whole q huge).1
    exact (law text listed).1.mpr (by decide)

/-- The conditions that name the number are malformed, and the other readers take its printed
form. -/
theorem evaluate_tenMillionth :
    (Value.number tenMillionth).compact = "1e-7" ∧
    measured.lookup? "p" = some (.number tenMillionth) ∧
    evaluate "p == 1e-7" measured = .error ⟨"p == 1e-7", .invalidNumber "1e"⟩ ∧
    evaluate "1e-7 <= p" measured = .error ⟨"1e-7 <= p", .invalidNumber "1e"⟩ ∧
    Literal.parse "1e-7" = .ok (.number tenMillionth) ∧
    Argument.tokenValue "1e-7".toList = .number tenMillionth := by
  have value : Number.ofNumeral? tenMillionth.text = some tenMillionth := by decide +kernel
  have readers := readers_number value
  rw [tenMillionth_compact] at readers
  exact ⟨tenMillionth_compact, rfl, by rfl, by rfl, readers⟩

end CommandContract.Condition
