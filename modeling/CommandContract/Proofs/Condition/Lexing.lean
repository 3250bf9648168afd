import CommandContract.Condition.Token
import CommandContract.Proofs.Literal.Reading
import CommandContract.Proofs.Text.Pieces
import CommandContract.Proofs.Text.Trim

set_option autoImplicit false

/-!
# The tokens of a text

How the tokens of a condition are spelled, said without a reader. A spelling comes with the
characters that would go on with it, and a token ends where none of them follows. Every text has at
most one list of tokens, and the tokenizer finds it: `tokenize_eq_ok_iff`.
-/
namespace CommandContract.Condition

open Text (Run Tight cutAtPair?_eq_some_iff run_iff tight_of_all)

variable {c : Char} {cs ds rest text : List Char} {t : Token} {ts : List Token}

/-! ## Spellings -/

/-- The characters of a string with its closing quote behind them. A backslash may stand before any
character, and has to before a quote of its kind and before a backslash. -/
inductive Quoted (quote : Char) : List Char → List Char → Prop
  | close : Quoted quote [quote] []
  | plain {c : Char} {raw body : List Char} (other : c ≠ quote) (bare : c ≠ '\\')
      (more : Quoted quote raw body) : Quoted quote (c :: raw) (c :: body)
  | escaped (c : Char) {raw body : List Char} (more : Quoted quote raw body) :
      Quoted quote ('\\' :: c :: raw) (c :: body)

def never (_ : Char) : Bool := false

def isEquals (c : Char) : Bool := c = '='

/-- Comparison signs, and the characters that would go on with them. -/
def signs : List (List Char × Comparison × (Char → Bool)) :=
  [(['=', '='], .eq, isEquals), (['=', '=', '='], .eq, never), (['!', '='], .ne, isEquals),
    (['!', '=', '='], .ne, never), (['<'], .lt, isEquals), (['<', '='], .le, never),
    (['>'], .gt, isEquals), (['>', '='], .ge, never)]

/-- A word that is no path. -/
def Reserved (word : String) : Prop := ∃ v, (word, v) ∈ Literal.keywords

/-- Where a number begins. -/
inductive NumberStart : List Char → Prop
  | digit {c : Char} {tail : List Char} (h : c.isDigit = true) : NumberStart (c :: tail)
  | minus {c : Char} {tail : List Char} (h : c.isDigit = true) : NumberStart ('-' :: c :: tail)

/-- A text that spells a token, and the characters that would go on with it. -/
inductive Lexeme : List Char → Token → (Char → Bool) → Prop
  | opening : Lexeme ['('] .opening never
  | closing : Lexeme [')'] .closing never
  | both : Lexeme ['&', '&'] .both never
  | either : Lexeme ['|', '|'] .either never
  | negation : Lexeme ['!'] .negation isEquals
  | sign {text : List Char} {op : Comparison} {more : Char → Bool} (h : (text, op, more) ∈ signs) :
      Lexeme text (.comparison op) more
  | string {quote : Char} {raw body : List Char} (kind : quote = '"' ∨ quote = '\'')
      (h : Quoted quote raw body) :
      Lexeme (quote :: raw) (.literal (.string (String.ofList body))) never
  | number {c : Char} {tail : List Char} {n : Number} (start : NumberStart (c :: tail))
      (all : ∀ d ∈ tail, isNumberChar d = true) (value : Number.ofNumeral? (c :: tail) = some n) :
      Lexeme (c :: tail) (.literal (.number n)) isNumberChar
  | keyword {word : String} {v : Value} (h : (word, v) ∈ Literal.keywords) :
      Lexeme word.toList (.literal v) isWordChar
  | path {c : Char} {tail : List Char} (start : Literal.isWordStart c = true)
      (all : ∀ d ∈ tail, isWordChar d = true) (free : ¬ Reserved (String.ofList (c :: tail))) :
      Lexeme (c :: tail) (.path (String.ofList (c :: tail))) isWordChar

/-- The first token of a text, and what is left behind it. Between braces stands any path up to the
first two closing ones. -/
inductive Takes : List Char → Token → List Char → Prop
  | lexeme {text rest : List Char} {t : Token} {more : Char → Bool} (h : Lexeme text t more)
      (longest : ∀ c ∈ rest.head?, more c = false) : Takes (text ++ rest) t rest
  | braces {inner : List Char} (rest : List Char)
      (first : ¬ ['\x7d', '\x7d'] <:+: inner ++ ['\x7d']) :
      Takes ('\x7b' :: '\x7b' :: (inner ++ '\x7d' :: '\x7d' :: rest))
        (.path (String.ofList (Text.trim inner))) rest

/-- The tokens of a whole text. -/
inductive Lexes : List Char → List Token → Prop
  | nil : Lexes [] []
  | blank {c : Char} {cs : List Char} {ts : List Token} (h : Text.isBlank c = true)
      (more : Lexes cs ts) : Lexes (c :: cs) ts
  | token {cs rest : List Char} {t : Token} {ts : List Token} (h : Takes cs t rest)
      (more : Lexes rest ts) : Lexes cs (t :: ts)

/-! ## The tokenizer -/

theorem readQuoted_eq_some_iff {quote : Char} {body : List Char} (kind : quote ≠ '\\') :
    readQuoted quote cs = some (body, rest) ↔ ∃ raw, cs = raw ++ rest ∧ Quoted quote raw body := by
  constructor
  · intro h
    fun_induction readQuoted quote cs generalizing body with
    | case1 => cases h
    | case2 c cs ih =>
      obtain ⟨⟨inner, _⟩, hr, he⟩ := Option.map_eq_some_iff.mp h
      cases he
      obtain ⟨raw, rfl, hq⟩ := ih hr
      exact ⟨_, rfl, .escaped c hq⟩
    | case3 cs =>
      cases h
      exact ⟨[quote], rfl, .close⟩
    | case4 c cs lone other ih =>
      obtain ⟨⟨inner, _⟩, hr, he⟩ := Option.map_eq_some_iff.mp h
      cases he
      obtain ⟨raw, rfl, hq⟩ := ih hr
      refine ⟨c :: raw, rfl, .plain other ?_ hq⟩
      rintro rfl
      cases hq <;> exact lone _ _ rfl rfl
  · rintro ⟨raw, rfl, h⟩
    induction h with
    | close => simp [readQuoted, kind]
    | @plain c raw body other bare _ ih => simp [readQuoted, other, bare, ih]
    | @escaped c raw body _ ih => simp [readQuoted, ih]

theorem stops (h : ∀ ds, cs = '=' :: ds → False) : ∀ c ∈ cs.head?, isEquals c = false := by
  intro c hc
  obtain ⟨ds, rfl⟩ := List.head?_eq_some_iff.mp hc
  exact decide_eq_false fun he => h ds (he ▸ rfl)

/-- A token that begins with none of the characters of operators. -/
def readPlain (c : Char) (cs : List Char) : Except Fault (Token × List Char) :=
  if c = '"' ∨ c = '\'' then
    match readQuoted c cs with
    | some (body, rest) => .ok (.literal (.string (String.ofList body)), rest)
    | none => .error .unterminatedString
  else if c.isDigit || (c = '-' && (cs.head?.map Char.isDigit).getD false) then readNumber c cs
  else if Literal.isWordStart c then
    let (word, rest) := (c :: cs).span isWordChar
    .ok (wordToken (String.ofList word), rest)
  else .error (.unexpectedCharacter c)

theorem numberStart_iff :
    NumberStart (c :: cs) ↔
      (c.isDigit || (c = '-' && (cs.head?.map Char.isDigit).getD false)) = true := by
  constructor
  · rintro (h | h) <;> simp [h]
  · intro h
    simp only [Bool.or_eq_true, Bool.and_eq_true, decide_eq_true_eq] at h
    rcases h with h | ⟨rfl, h⟩
    · exact .digit h
    · cases cs with
      | nil => cases h
      | cons d cs => exact .minus h

theorem isNumberChar_of_isDigit (h : c.isDigit = true) : isNumberChar c = true := by
  simp [isNumberChar, h]

theorem NumberStart.of_run {tail : List Char} (h : NumberStart (c :: cs))
    (run : Run isNumberChar cs tail rest) : NumberStart (c :: tail) := by
  cases h with
  | digit h => exact .digit h
  | minus h =>
    obtain ⟨e, tail, rfl⟩ := List.exists_cons_of_ne_nil (run.ne_nil (isNumberChar_of_isDigit h))
    obtain ⟨rfl, -⟩ := List.cons.inj run.split
    exact .minus h

theorem NumberStart.append {tail : List Char} (h : NumberStart (c :: tail)) (rest : List Char) :
    NumberStart (c :: (tail ++ rest)) := by
  cases h with
  | digit h => exact .digit h
  | minus h => exact .minus h

theorem isWordChar_of_isWordStart (h : Literal.isWordStart c = true) : isWordChar c = true := by
  simp [isWordChar, Literal.isWordChar_of_start (.inl h)]

theorem lexeme_wordToken {tail : List Char} (start : Literal.isWordStart c = true)
    (all : ∀ d ∈ tail, isWordChar d = true) :
    Lexeme (c :: tail) (wordToken (String.ofList (c :: tail))) isWordChar := by
  unfold wordToken
  split
  · rename_i v known
    simpa using Lexeme.keyword (Literal.keyword_iff.mp known)
  · rename_i free
    refine .path start all ?_
    rintro ⟨v, known⟩
    rw [Literal.keyword_iff.mpr known] at free
    cases free

theorem takes_of_readPlain (h : readPlain c cs = .ok (t, rest)) : Takes (c :: cs) t rest := by
  unfold readPlain at h
  split at h
  · rename_i kind
    split at h
    · rename_i body _ hq
      cases h
      have bare : c ≠ '\\' := by rcases kind with rfl | rfl <;> decide
      obtain ⟨raw, rfl, quoted⟩ := (readQuoted_eq_some_iff bare).mp hq
      exact .lexeme (.string kind quoted) fun _ _ => rfl
    · cases h
  · split at h
    · rename_i start
      unfold readNumber at h
      generalize taken : cs.span isNumberChar = parts at h
      obtain ⟨tail, rest⟩ := parts
      have run := run_iff.mpr taken
      dsimp only at h
      split at h
      · rename_i n value
        cases h
        have first := (numberStart_iff.mpr start).of_run run
        obtain ⟨rfl, all, maximal⟩ := run
        exact .lexeme (.number first all value) maximal
      · cases h
    · split at h
      · rename_i start
        generalize taken : (c :: cs).span isWordChar = parts at h
        obtain ⟨word, rest⟩ := parts
        have run := run_iff.mpr taken
        have long := run.ne_nil (isWordChar_of_isWordStart start)
        cases h
        obtain ⟨split, all, maximal⟩ := run
        obtain ⟨d, tail, rfl⟩ := List.exists_cons_of_ne_nil long
        obtain ⟨rfl, rfl⟩ := List.cons.inj split
        exact .lexeme (lexeme_wordToken start (List.forall_mem_cons.mp all).2) maximal
      · cases h

theorem takes_of_nextToken (h : nextToken c cs = .ok (t, rest)) : Takes (c :: cs) t rest := by
  have always : ∀ d ∈ rest.head?, never d = false := fun _ _ => rfl
  unfold nextToken at h
  split at h
  case h_1 =>
    cases h
    exact .lexeme .opening always
  case h_2 =>
    cases h
    exact .lexeme .closing always
  case h_3 =>
    cases h
    exact .lexeme .both always
  case h_4 =>
    cases h
    exact .lexeme .either always
  case h_5 =>
    cases h
    exact .lexeme (@Lexeme.sign ['=', '=', '='] _ never (by simp [signs])) always
  case h_6 longer =>
    cases h
    exact .lexeme (@Lexeme.sign ['=', '='] _ isEquals (by simp [signs])) (stops longer)
  case h_7 =>
    cases h
    exact .lexeme (@Lexeme.sign ['!', '=', '='] _ never (by simp [signs])) always
  case h_8 longer =>
    cases h
    exact .lexeme (@Lexeme.sign ['!', '='] _ isEquals (by simp [signs])) (stops longer)
  case h_9 _ longer =>
    cases h
    exact .lexeme .negation (stops longer)
  case h_10 =>
    cases h
    exact .lexeme (@Lexeme.sign ['<', '='] _ never (by simp [signs])) always
  case h_11 longer =>
    cases h
    exact .lexeme (@Lexeme.sign ['<'] _ isEquals (by simp [signs])) (stops longer)
  case h_12 =>
    cases h
    exact .lexeme (@Lexeme.sign ['>', '='] _ never (by simp [signs])) always
  case h_13 longer =>
    cases h
    exact .lexeme (@Lexeme.sign ['>'] _ isEquals (by simp [signs])) (stops longer)
  case h_14 cs =>
    split at h
    · rename_i inner _ cut
      cases h
      obtain ⟨rfl, first⟩ := cutAtPair?_eq_some_iff.mp cut
      exact .braces rest first
    · cases h
  case h_15 => exact takes_of_readPlain h

/-! ### Completeness -/

/-- The characters that operators begin with. -/
def operatorChars : List Char := ['(', ')', '&', '|', '=', '!', '<', '>', '\x7b']

theorem nextToken_eq_readPlain (h : c ∉ operatorChars) : nextToken c cs = readPlain c cs := by
  unfold nextToken
  split
  case h_15 => rfl
  all_goals exact absurd (by simp [operatorChars]) h

theorem nextToken_sign {op : Comparison} {more : Char → Bool} {tail : List Char}
    (h : (c :: tail, op, more) ∈ signs) (longest : ∀ d ∈ rest.head?, more d = false) :
    nextToken c (tail ++ rest) = .ok (.comparison op, rest) := by
  have other : ∀ d ds, rest = d :: ds → more = isEquals → d ≠ '=' := by
    rintro d ds rfl rfl
    simpa [isEquals] using longest d rfl
  simp only [signs, List.mem_cons, Prod.mk.injEq, List.cons.injEq, List.not_mem_nil,
    or_false] at h
  rcases h with ⟨⟨rfl, rfl⟩, rfl, he⟩ | ⟨⟨rfl, rfl⟩, rfl, he⟩ | ⟨⟨rfl, rfl⟩, rfl, he⟩ |
    ⟨⟨rfl, rfl⟩, rfl, he⟩ | ⟨⟨rfl, rfl⟩, rfl, he⟩ | ⟨⟨rfl, rfl⟩, rfl, he⟩ |
    ⟨⟨rfl, rfl⟩, rfl, he⟩ | ⟨⟨rfl, rfl⟩, rfl, he⟩
  all_goals first
    | rfl
    | cases rest with
      | nil => rfl
      | cons d ds => simp [nextToken, other d ds rfl he]

theorem nextToken_negation (longest : ∀ d ∈ rest.head?, isEquals d = false) :
    nextToken '!' rest = .ok (.negation, rest) := by
  cases rest with
  | nil => rfl
  | cons d ds =>
    have other : d ≠ '=' := by simpa [isEquals] using longest d rfl
    simp [nextToken, other]

theorem not_mem_operatorChars_of_isWordStart (h : Literal.isWordStart c = true) :
    c ∉ operatorChars := by
  have none : operatorChars.any Literal.isWordStart = false := by decide
  exact fun hc => List.any_eq_false.mp none c hc h

theorem not_numberStart_of_isWordStart (h : Literal.isWordStart c = true) :
    ¬ NumberStart (c :: cs) := by
  intro start
  cases start with
  | minus => exact absurd h (by decide)
  | digit digit =>
    obtain ⟨low, high⟩ := toNat_of_isDigit digit
    simp only [Literal.isWordStart, Text.isAlphabetic, if_pos (show c.toNat < 128 by omega),
      Bool.or_eq_true, decide_eq_true_eq] at h
    rcases h with (h | rfl) | rfl
    · have := Text.toNat_of_isAlpha h
      omega
    · exact absurd digit (by decide)
    · exact absurd digit (by decide)

theorem NumberStart.not_mem_operatorChars (h : NumberStart (c :: cs)) : c ∉ operatorChars := by
  have none : operatorChars.any Char.isDigit = false := by decide
  intro hc
  cases h with
  | digit h => exact List.any_eq_false.mp none c hc h
  | minus => exact absurd hc (by decide)

theorem nextToken_string {quote : Char} {raw body : List Char} (kind : quote = '"' ∨ quote = '\'')
    (h : Quoted quote raw body) (rest : List Char) :
    nextToken quote (raw ++ rest) = .ok (.literal (.string (String.ofList body)), rest) := by
  have plain : quote ∉ operatorChars := by rcases kind with rfl | rfl <;> decide
  have bare : quote ≠ '\\' := by rcases kind with rfl | rfl <;> decide
  rw [nextToken_eq_readPlain plain, readPlain, if_pos kind,
    (readQuoted_eq_some_iff bare).mpr ⟨raw, rfl, h⟩]

theorem nextToken_of_numberStart (start : NumberStart (c :: cs)) :
    nextToken c cs = readNumber c cs := by
  have unquoted : ¬ (c = '"' ∨ c = '\'') := by
    rintro (rfl | rfl) <;> cases start <;> contradiction
  rw [nextToken_eq_readPlain start.not_mem_operatorChars, readPlain, if_neg unquoted,
    if_pos (numberStart_iff.mp start)]

theorem nextToken_number {tail : List Char} {n : Number} (start : NumberStart (c :: tail))
    (all : ∀ d ∈ tail, isNumberChar d = true) (value : Number.ofNumeral? (c :: tail) = some n)
    (longest : ∀ d ∈ rest.head?, isNumberChar d = false) :
    nextToken c (tail ++ rest) = .ok (.literal (.number n), rest) := by
  rw [nextToken_of_numberStart (start.append rest), readNumber, run_iff.mp ⟨rfl, all, longest⟩]
  simp only [value]

theorem nextToken_word {tail : List Char} (start : Literal.isWordStart c = true)
    (all : ∀ d ∈ tail, isWordChar d = true) (longest : ∀ d ∈ rest.head?, isWordChar d = false) :
    nextToken c (tail ++ rest) = .ok (wordToken (String.ofList (c :: tail)), rest) := by
  have unquoted : ¬ (c = '"' ∨ c = '\'') := by
    rintro (rfl | rfl) <;> exact absurd start (by decide)
  have run : Run isWordChar (c :: (tail ++ rest)) (c :: tail) rest :=
    ⟨rfl, List.forall_mem_cons.mpr ⟨isWordChar_of_isWordStart start, all⟩, longest⟩
  rw [nextToken_eq_readPlain (not_mem_operatorChars_of_isWordStart start), readPlain,
    if_neg unquoted, if_neg (not_numberStart_of_isWordStart start ∘ numberStart_iff.mpr),
    if_pos start, run_iff.mp run]

theorem keyword_spelling {word : String} {v : Value} (h : (word, v) ∈ Literal.keywords) :
    ∃ c tail, word.toList = c :: tail ∧ Literal.isWordStart c = true ∧
      ∀ d ∈ tail, isWordChar d = true := by
  simp only [Literal.keywords, List.mem_cons, Prod.mk.injEq, List.not_mem_nil, or_false] at h
  rcases h with ⟨rfl, _⟩ | ⟨rfl, _⟩ | ⟨rfl, _⟩ | ⟨rfl, _⟩ <;>
    exact ⟨_, _, rfl, by decide, List.all_eq_true.mp (by decide)⟩

theorem wordToken_of_keyword {word : String} {v : Value} (h : (word, v) ∈ Literal.keywords) :
    wordToken word = .literal v := by
  simp only [wordToken, Literal.keyword_iff.mpr h]

theorem wordToken_of_free {word : String} (h : ¬ Reserved word) : wordToken word = .path word := by
  unfold wordToken
  split
  · rename_i v known
    exact absurd ⟨v, Literal.keyword_iff.mp known⟩ h
  · rfl

theorem sign_ne_nil {text : List Char} {op : Comparison} {more : Char → Bool}
    (h : (text, op, more) ∈ signs) : text ≠ [] := by
  rintro rfl
  simp [signs] at h

theorem nextToken_of_takes (h : Takes (c :: cs) t rest) : nextToken c cs = .ok (t, rest) := by
  generalize hcs : c :: cs = all at h
  cases h with
  | @lexeme text _ _ _ h longest =>
    cases h with
    | opening =>
      cases hcs
      rfl
    | closing =>
      cases hcs
      rfl
    | both =>
      cases hcs
      rfl
    | either =>
      cases hcs
      rfl
    | negation =>
      cases hcs
      exact nextToken_negation longest
    | sign h =>
      obtain ⟨d, tail, rfl⟩ := List.exists_cons_of_ne_nil (sign_ne_nil h)
      cases hcs
      exact nextToken_sign h longest
    | string kind h =>
      cases hcs
      exact nextToken_string kind h rest
    | number start all value =>
      cases hcs
      exact nextToken_number start all value longest
    | @keyword word _ h =>
      obtain ⟨d, tail, spelling, start, all⟩ := keyword_spelling h
      rw [spelling] at hcs
      cases hcs
      rw [← wordToken_of_keyword h, ← word.ofList_toList, spelling]
      exact nextToken_word start all longest
    | path start all free =>
      cases hcs
      rw [← wordToken_of_free free]
      exact nextToken_word start all longest
  | @braces inner _ first =>
    cases hcs
    simp only [nextToken, cutAtPair?_eq_some_iff.mpr ⟨rfl, first⟩]

/-! ### The whole text -/

theorem isBlank_of_isNumberChar (h : isNumberChar c = true) : Text.isBlank c = false := by
  by_cases he : c = 'E'
  · subst he
    decide
  · refine isBlank_of_isNumeralChar ?_
    simp only [isNumberChar, he, Bool.or_eq_true, decide_eq_true_eq, or_false] at h
    rcases h with (h | rfl) | rfl
    · exact isNumeralChar_of_isDigit h
    · decide
    · decide

theorem isBlank_of_isWordChar (h : isWordChar c = true) : Text.isBlank c = false := by
  simp only [isWordChar, Literal.isWordChar, Bool.or_eq_true, decide_eq_true_eq] at h
  rcases h with (((h | rfl) | rfl) | rfl) | rfl
  · exact Text.isBlank_of_isAlphanumeric h
  all_goals decide

theorem Quoted.getLast? {quote : Char} {raw body : List Char} (h : Quoted quote raw body) :
    raw.getLast? = some quote := by
  induction h with
  | close => rfl
  | plain _ _ _ ih => rw [List.getLast?_cons, ih]; rfl
  | escaped _ _ ih => rw [List.getLast?_cons, List.getLast?_cons, ih]; rfl

theorem tight_word {tail : List Char} (start : Literal.isWordStart c = true)
    (all : ∀ d ∈ tail, isWordChar d = true) : Tight (c :: tail) := by
  refine tight_of_all (List.cons_ne_nil _ _) (List.forall_mem_cons.mpr ⟨?_, ?_⟩)
  · exact isBlank_of_isWordChar (isWordChar_of_isWordStart start)
  · exact fun d hd => isBlank_of_isWordChar (all d hd)

theorem sign_tight {op : Comparison} {more : Char → Bool} (h : (text, op, more) ∈ signs) :
    Tight text := by
  have solid : signs.all (fun s => s.1.all fun c => !Text.isBlank c) = true := by decide
  have all := List.all_eq_true.mp (List.all_eq_true.mp solid _ h)
  exact tight_of_all (sign_ne_nil h) fun c hc => by simpa using all c hc

theorem Lexeme.tight {more : Char → Bool} (h : Lexeme text t more) : Tight text := by
  cases h with
  | opening | closing | both | either | negation =>
    exact tight_of_all (List.cons_ne_nil _ _) (by simp; decide)
  | sign h => exact sign_tight h
  | @string quote raw _ kind h =>
    have solid : Text.isBlank quote = false := by rcases kind with rfl | rfl <;> decide
    refine ⟨List.cons_ne_nil _ _, ?_, ?_⟩
    · rintro c ⟨⟩
      exact solid
    · rw [List.getLast?_cons, h.getLast?]
      rintro c ⟨⟩
      exact solid
  | number start all =>
    refine tight_of_all (List.cons_ne_nil _ _) (List.forall_mem_cons.mpr ⟨?_, ?_⟩)
    · cases start with
      | digit h => exact isBlank_of_isNumberChar (isNumberChar_of_isDigit h)
      | minus => decide
    · exact fun d hd => isBlank_of_isNumberChar (all d hd)
  | keyword h =>
    obtain ⟨c, tail, spelling, start, all⟩ := keyword_spelling h
    rw [spelling]
    exact tight_word start all
  | path start all => exact tight_word start all

theorem Takes.head (h : Takes (c :: cs) t rest) : Text.isBlank c = false := by
  generalize hcs : c :: cs = all at h
  cases h with
  | @lexeme text _ _ _ h =>
    obtain ⟨d, tail, rfl⟩ := List.exists_cons_of_ne_nil h.tight.ne_nil
    cases hcs
    exact h.tight.head c rfl
  | braces =>
    cases hcs
    decide

theorem Takes.length_lt (h : Takes cs t rest) : rest.length < cs.length := by
  cases h with
  | lexeme h =>
    have := List.length_pos_iff.mpr h.tight.ne_nil
    rw [List.length_append]
    omega
  | braces =>
    simp only [List.length_cons, List.length_append]
    omega

theorem lexes_nil_iff : Lexes [] ts ↔ ts = [] := by
  constructor
  · intro h
    cases h with
    | nil => rfl
    | token h => exact absurd h.length_lt (Nat.not_lt_zero _)
  · rintro rfl
    exact .nil

theorem lexes_blank_iff (blank : Text.isBlank c = true) : Lexes (c :: cs) ts ↔ Lexes cs ts := by
  refine ⟨fun h => ?_, .blank blank⟩
  cases h with
  | blank _ h => exact h
  | token h =>
    rw [h.head] at blank
    cases blank

theorem lexes_token_iff (solid : Text.isBlank c = false) :
    Lexes (c :: cs) ts ↔
      ∃ t rest, nextToken c cs = .ok (t, rest) ∧
        ∃ others, Lexes rest others ∧ ts = t :: others := by
  constructor
  · intro h
    cases h with
    | blank blank =>
      rw [solid] at blank
      cases blank
    | token h more => exact ⟨_, _, nextToken_of_takes h, _, more, rfl⟩
  · rintro ⟨t, rest, h, others, more, rfl⟩
    exact .token (takes_of_nextToken h) more

theorem tokensFrom_eq_ok_iff {fuel : Nat} (enough : cs.length ≤ fuel) :
    tokensFrom fuel cs = .ok ts ↔ Lexes cs ts := by
  induction fuel generalizing cs ts with
  | zero =>
    rw [List.length_eq_zero_iff.mp (Nat.le_zero.mp enough), lexes_nil_iff, tokensFrom,
      Except.ok.injEq, eq_comm]
  | succ fuel ih =>
    cases cs with
    | nil => rw [lexes_nil_iff, tokensFrom, Except.ok.injEq, eq_comm]
    | cons c cs =>
      have shorter : cs.length ≤ fuel := Nat.le_of_succ_le_succ enough
      rw [tokensFrom]
      by_cases blank : Text.isBlank c = true
      · rw [if_pos blank, lexes_blank_iff blank, ih shorter]
      · rw [if_neg blank, lexes_token_iff (Bool.eq_false_iff.mpr blank)]
        simp only [Except.bind_eq_ok_iff, Prod.exists]
        refine exists_congr fun t => exists_congr fun rest => and_congr_right fun h => ?_
        have := (takes_of_nextToken h).length_lt
        rw [List.length_cons] at this
        simp only [ih (by omega : rest.length ≤ fuel), Except.ok.injEq, eq_comm]

/-- The tokenizer finds the tokens that the text is made of, if it is made of tokens. -/
theorem tokenize_eq_ok_iff : tokenize cs = .ok ts ↔ Lexes cs ts :=
  tokensFrom_eq_ok_iff (Nat.le_refl _)

end CommandContract.Condition
