import CommandContract.Proofs.Condition.Grammar
import CommandContract.Proofs.Condition.Lexing

set_option autoImplicit false

/-!
# Conditions in print

How an expression is written down: its tokens with the parentheses that it needs, and the characters
of the tokens with any blanks between them. What is written is read back with the same meaning, and
nothing else is read at all: `evaluate_follows`.
-/
namespace CommandContract.Condition

open Text (Padded Tight)

variable {ts rest : List Token} {e : Expression} {t u : Token} {text : List Char}
  {more : Char → Bool} {cs : List Char}

/-! ## Tokens of an expression -/

/-- The ways to print an expression where operators bind as tightly as a level. Parentheses may
always stand, and have to where an operator binds less tightly than its place asks for. -/
inductive Printed : Level → Expression → List Token → Prop
  | joined {e : Expression} {ts : List Token} (h : Printed .both e ts) : Printed .either e ts
  | either {a b : Expression} {s t : List Token} (h : Printed .either a s)
      (other : Printed .either b t) : Printed .either (.either a b) (s ++ .either :: t)
  | single {e : Expression} {ts : List Token} (h : Printed .unary e ts) : Printed .both e ts
  | both {a b : Expression} {s t : List Token} (h : Printed .both a s)
      (other : Printed .both b t) : Printed .both (.both a b) (s ++ .both :: t)
  | negation {e : Expression} {ts : List Token} (h : Printed .unary e ts) :
      Printed .unary (.negation e) (.negation :: ts)
  | parens {e : Expression} {ts : List Token} (h : Printed .either e ts) :
      Printed .unary e (.opening :: ts ++ [.closing])
  | compare (op : Comparison) (a b : Operand) :
      Printed .unary (.compare op a b) [a.token, .comparison op, b.token]
  | truth (a : Operand) : Printed .unary (.truth a) [a.token]

def wrapped (needed : Bool) (ts : List Token) : List Token :=
  if needed then .opening :: ts ++ [.closing] else ts

def Expression.isEither : Expression → Bool
  | either _ _ => true
  | _ => false

def Expression.isBoth : Expression → Bool
  | both _ _ => true
  | _ => false

/-- The tokens with parentheses only where they are needed. -/
def Expression.tokens : Expression → List Token
  | either a b => a.tokens ++ .either :: b.tokens
  | both a b => wrapped a.isEither a.tokens ++ .both :: wrapped b.isEither b.tokens
  | negation a => .negation :: wrapped (a.isEither || a.isBoth) a.tokens
  | compare op a b => [a.token, .comparison op, b.token]
  | truth a => [a.token]

/-- Parts that bind more tightly need no parentheses. -/
theorem Printed.wrapped {level : Level} {needed : Bool} (h : Printed .either e ts)
    (tight : needed = false → Printed level e ts)
    (lift : ∀ {us}, Printed .unary e us → Printed level e us) :
    Printed level e (wrapped needed ts) := by
  cases needed with
  | true => exact lift (.parens h)
  | false => exact tight rfl

theorem printed_tokens (e : Expression) :
    Printed .either e e.tokens ∧ (e.isEither = false → Printed .both e e.tokens) ∧
      ((e.isEither || e.isBoth) = false → Printed .unary e e.tokens) := by
  have unary : ∀ {e ts}, Printed .unary e ts → Printed .either e ts ∧
      (e.isEither = false → Printed .both e ts) ∧
      ((e.isEither || e.isBoth) = false → Printed .unary e ts) :=
    fun h => ⟨.joined (.single h), fun _ => .single h, fun _ => h⟩
  induction e with
  | either a b iha ihb => exact ⟨.either iha.1 ihb.1, nofun, nofun⟩
  | both a b iha ihb =>
    have whole : Printed .both (.both a b) (Expression.both a b).tokens :=
      .both (iha.1.wrapped iha.2.1 .single) (ihb.1.wrapped ihb.2.1 .single)
    exact ⟨.joined whole, fun _ => whole, nofun⟩
  | negation a ih => exact unary (.negation (ih.1.wrapped ih.2.2 id))
  | compare op a b => exact unary (.compare op a b)
  | truth a => exact unary (.truth a)

/-- Operators of one kind may be grouped in any way. -/
theorem Derives.either_append {s t : List Token} {a b : Expression} (h : Derives .either s a)
    (other : Derives .either t b) : ∃ e, Derives .either (s ++ .either :: t) e ∧
      ∀ context, e.holds context = (a.holds context || b.holds context) := by
  generalize hl : Level.either = level at other
  induction other with
  | joined other _ => exact ⟨_, .either h other, fun _ => rfl⟩
  | @either s' t' _ b _ other ih _ =>
    obtain ⟨e, derived, holds⟩ := ih hl
    refine ⟨.either e b, ?_, fun context => ?_⟩
    · simpa using Derives.either derived other
    · simp only [Expression.holds, holds, Bool.or_assoc]
  | _ => cases hl

theorem Derives.both_append {s t : List Token} {a b : Expression} (h : Derives .both s a)
    (other : Derives .both t b) : ∃ e, Derives .both (s ++ .both :: t) e ∧
      ∀ context, e.holds context = (a.holds context && b.holds context) := by
  generalize hl : Level.both = level at other
  induction other with
  | single other _ => exact ⟨_, .both h other, fun _ => rfl⟩
  | @both s' t' _ b _ other ih _ =>
    obtain ⟨e, derived, holds⟩ := ih hl
    refine ⟨.both e b, ?_, fun context => ?_⟩
    · simpa using Derives.both derived other
    · simp only [Expression.holds, holds, Bool.and_assoc]
  | _ => cases hl

/-- What is printed is derived, up to the grouping of equal operators. -/
theorem Printed.derives {level : Level} (h : Printed level e ts) :
    ∃ e', Derives level ts e' ∧ ∀ context, e'.holds context = e.holds context := by
  induction h with
  | joined _ ih =>
    obtain ⟨e', derived, holds⟩ := ih
    exact ⟨e', .joined derived, holds⟩
  | either _ _ iha ihb =>
    obtain ⟨a', da, ha⟩ := iha
    obtain ⟨b', db, hb⟩ := ihb
    obtain ⟨e', derived, holds⟩ := da.either_append db
    exact ⟨e', derived, fun context => by rw [holds, ha, hb, Expression.holds]⟩
  | single _ ih =>
    obtain ⟨e', derived, holds⟩ := ih
    exact ⟨e', .single derived, holds⟩
  | both _ _ iha ihb =>
    obtain ⟨a', da, ha⟩ := iha
    obtain ⟨b', db, hb⟩ := ihb
    obtain ⟨e', derived, holds⟩ := da.both_append db
    exact ⟨e', derived, fun context => by rw [holds, ha, hb, Expression.holds]⟩
  | negation _ ih =>
    obtain ⟨e', derived, holds⟩ := ih
    exact ⟨.negation e', .negation derived, fun context => by
      rw [Expression.holds, Expression.holds, holds]⟩
  | parens _ ih =>
    obtain ⟨e', derived, holds⟩ := ih
    exact ⟨e', .parens derived, holds⟩
  | compare op a b => exact ⟨_, .compare op a b, fun _ => rfl⟩
  | truth a => exact ⟨_, .truth a, fun _ => rfl⟩

/-! ## Characters of tokens -/

/-- The spellings of tokens in a row, with any blanks between them. -/
inductive Spelled : List Token → List Char → Prop
  | last {text : List Char} {t : Token} {more : Char → Bool} (h : Lexeme text t more) :
      Spelled [t] text
  | next {text gap cs : List Char} {t : Token} {ts : List Token} {more : Char → Bool}
      (h : Lexeme text t more) (blank : ∀ c ∈ gap, Text.isBlank c = true)
      (others : Spelled ts cs) : Spelled (t :: ts) (text ++ gap ++ cs)

/-- An operand may begin with the token. -/
def Token.starts : Token → Bool
  | opening | negation | literal _ | path _ => true
  | _ => false

/-- An operand has to follow the token. -/
def Token.leads : Token → Bool
  | opening | both | either | negation | comparison _ => true
  | _ => false

/-- Operands begin where they have to, and nowhere else. -/
structure Phrase (ts : List Token) : Prop where
  head : ∀ t ∈ ts.head?, t.starts = true
  joint : List.IsChain (fun t u => u.starts = t.leads) ts
  last : ∀ t ∈ ts.getLast?, t.leads = false

/-- An operator between two phrases makes a phrase. -/
theorem Phrase.join {s t : List Token} (h : Phrase s) (other : Phrase t) (hs : s ≠ []) (ht : t ≠ [])
    (leads : u.leads = true) (starts : u.starts = false) : Phrase (s ++ u :: t) := by
  refine ⟨?_, ?_, ?_⟩
  · rw [List.head?_append_of_ne_nil s hs]
    exact h.head
  · rw [List.isChain_append]
    refine ⟨h.joint, List.isChain_cons.mpr ⟨fun v hv => ?_, other.joint⟩, ?_⟩
    · rw [other.head v hv, leads]
    · rintro v hv w ⟨⟩
      rw [h.last v hv, starts]
  · rw [List.getLast?_append_of_ne_nil _ (List.cons_ne_nil u t), List.getLast?_cons_of_ne_nil ht]
    exact other.last

/-- A prefix operator or a parenthesis in front of a phrase. -/
theorem Phrase.cons (h : Phrase ts) (hne : ts ≠ []) (starts : u.starts = true)
    (leads : u.leads = true) : Phrase (u :: ts) := by
  refine ⟨?_, List.isChain_cons.mpr ⟨fun v hv => ?_, h.joint⟩, ?_⟩
  · rintro v ⟨⟩
    exact starts
  · rw [h.head v hv, leads]
  · rw [List.getLast?_cons_of_ne_nil hne]
    exact h.last

theorem Phrase.closing (h : Phrase ts) (hne : ts ≠ []) (starts : u.starts = false)
    (leads : u.leads = false) : Phrase (ts ++ [u]) := by
  refine ⟨?_, ?_, ?_⟩
  · rw [List.head?_append_of_ne_nil ts hne]
    exact h.head
  · rw [List.isChain_append]
    refine ⟨h.joint, List.isChain_singleton _, ?_⟩
    rintro v hv w ⟨⟩
    rw [h.last v hv, starts]
  · rw [List.getLast?_append_of_ne_nil _ (List.cons_ne_nil u [])]
    rintro v ⟨⟩
    exact leads

theorem phrase_operand (a : Operand) : Phrase [a.token] := by
  refine ⟨?_, List.isChain_singleton _, ?_⟩ <;> cases a <;> rintro t ⟨⟩ <;> rfl

theorem Derives.phrase {level : Level} (h : Derives level ts e) : Phrase ts := by
  induction h with
  | joined _ ih | single _ ih => exact ih
  | either h other ih ih' | both h other ih ih' =>
    exact ih.join ih' (List.ne_nil_of_length_pos h.length_pos)
      (List.ne_nil_of_length_pos other.length_pos) rfl rfl
  | negation h ih => exact ih.cons (List.ne_nil_of_length_pos h.length_pos) rfl rfl
  | parens h ih =>
    have inner := ih.cons (List.ne_nil_of_length_pos h.length_pos) (u := .opening) rfl rfl
    exact inner.closing (List.cons_ne_nil _ _) rfl rfl
  | compare op a b =>
    exact (phrase_operand a).join (phrase_operand b) (List.cons_ne_nil _ _) (List.cons_ne_nil _ _)
      rfl rfl
  | truth a => exact phrase_operand a

/-! ### Operands -/

/-- A string between quotes, with a backslash before quotes and backslashes. -/
def quoted (quote : Char) (body : List Char) : List Char :=
  quote :: (body.flatMap (fun c => if c = '"' ∨ c = '\'' ∨ c = '\\' then ['\\', c] else [c]) ++
    [quote])

theorem lexeme_quoted {quote : Char} (kind : quote = '"' ∨ quote = '\'') (body : List Char) :
    Lexeme (quoted quote body) (.literal (.string (String.ofList body))) never := by
  refine .string kind ?_
  induction body with
  | nil => exact .close
  | cons c body ih =>
    rw [List.flatMap_cons]
    split
    · exact .escaped c ih
    · rename_i bare
      refine .plain ?_ (fun h => bare (.inr (.inr h))) ih
      rintro rfl
      exact bare (kind.imp_right .inl)

def Identifier (cs : List Char) : Prop :=
  ∃ c tail, cs = c :: tail ∧ Literal.isWordStart c = true ∧
    ∀ d ∈ tail, Literal.isWordChar d = true

def dotted : List (List Char) → List Char
  | [] => []
  | [segment] => segment
  | segment :: segments => segment ++ '.' :: dotted segments

theorem isWordChar_of_dotted {segments : List (List Char)}
    (h : ∀ s ∈ segments, Identifier s) : ∀ c ∈ dotted segments, isWordChar c = true := by
  have word : ∀ s, Identifier s → ∀ c ∈ s, isWordChar c = true := by
    rintro _ ⟨c, tail, rfl, start, all⟩
    refine List.forall_mem_cons.mpr ⟨isWordChar_of_isWordStart start, fun d hd => ?_⟩
    simp [isWordChar, all d hd]
  induction segments with
  | nil => exact List.forall_mem_nil _
  | cons segment segments ih =>
    obtain ⟨first, others⟩ := List.forall_mem_cons.mp h
    cases segments with
    | nil => exact word segment first
    | cons next segments =>
      intro c hc
      rcases List.mem_append.mp hc with hc | hc
      · exact word segment first c hc
      · rcases List.mem_cons.mp hc with rfl | hc
        · rfl
        · exact ih others c hc

theorem lexeme_dotted {segments : List (List Char)} (hne : segments ≠ [])
    (h : ∀ s ∈ segments, Identifier s) (free : ¬ Reserved (String.ofList (dotted segments))) :
    Lexeme (dotted segments) (.path (String.ofList (dotted segments))) isWordChar := by
  obtain ⟨segment, segments, rfl⟩ := List.exists_cons_of_ne_nil hne
  obtain ⟨c, tail, split, start, _⟩ := h segment List.mem_cons_self
  obtain ⟨behind, begins⟩ : ∃ behind, dotted (segment :: segments) = c :: behind := by
    subst split
    cases segments <;> exact ⟨_, rfl⟩
  have all := isWordChar_of_dotted h
  rw [begins] at all free ⊢
  exact .path start (List.forall_mem_cons.mp all).2 free

/-! ### Where tokens meet -/

theorem isWordChar_of_isNumberChar {c : Char} (h : isNumberChar c = true) :
    isWordChar c = true := by
  simp only [isNumberChar, Bool.or_eq_true, decide_eq_true_eq] at h
  rcases h with ((h | rfl) | rfl) | rfl
  · simp [isWordChar, Literal.isWordChar_of_start (.inr h)]
  all_goals decide

theorem sign_more {op : Comparison} (h : (text, op, more) ∈ signs) :
    more = never ∨ more = isEquals := by
  simp only [signs, List.mem_cons, Prod.mk.injEq, List.not_mem_nil, or_false] at h
  tauto

/-- What goes on with an operator is `=`, and what goes on with an operand is a part of a word. -/
theorem Lexeme.goesOn {c : Char} (h : Lexeme text t more) (hc : more c = true) :
    if t.leads then c = '=' else isWordChar c = true := by
  cases h with
  | opening | closing | both | either | string => cases hc
  | negation => exact of_decide_eq_true hc
  | sign h =>
    rcases sign_more h with rfl | rfl
    · cases hc
    · exact of_decide_eq_true hc
  | number => exact isWordChar_of_isNumberChar hc
  | keyword | path => exact hc

/-- What an operand begins with is neither `=` nor a brace, and what an operator behind an operand
begins with is no part of a word. -/
theorem Lexeme.begins {c : Char} (h : Lexeme (c :: cs) t more) :
    c ≠ '\x7b' ∧ if t.starts then c ≠ '=' else isWordChar c = false := by
  have word : Literal.isWordStart c = true → c ≠ '\x7b' ∧ c ≠ '=' := by
    intro start
    constructor <;> (rintro rfl; exact absurd start (by decide))
  generalize hcs : c :: cs = all at h
  cases h with
  | opening | closing | both | either | negation =>
    cases hcs
    decide
  | sign h =>
    subst hcs
    simp only [signs, List.mem_cons, Prod.mk.injEq, List.cons.injEq, List.not_mem_nil,
      or_false] at h
    have sign : c = '=' ∨ c = '!' ∨ c = '<' ∨ c = '>' := by tauto
    change c ≠ '\x7b' ∧ isWordChar c = false
    rcases sign with rfl | rfl | rfl | rfl <;> decide
  | string kind =>
    cases hcs
    change c ≠ '\x7b' ∧ c ≠ '='
    rcases kind with rfl | rfl <;> decide
  | number start =>
    cases hcs
    change c ≠ '\x7b' ∧ c ≠ '='
    cases start with
    | digit h => constructor <;> (rintro rfl; cases h)
    | minus => decide
  | keyword h =>
    obtain ⟨d, tail, spelling, start, _⟩ := keyword_spelling h
    rw [spelling] at hcs
    cases hcs
    exact word start
  | path start =>
    cases hcs
    exact word start

theorem Lexeme.more_isBlank {c : Char} (h : Lexeme text t more) (blank : Text.isBlank c = true) :
    more c = false := by
  rw [← Bool.not_eq_true]
  intro hc
  have := h.goesOn hc
  split at this
  · subst this
    cases blank
  · rw [isBlank_of_isWordChar this] at blank
    cases blank

/-- Tokens of a phrase do not run into each other. -/
theorem Lexeme.apart {other : List Char} {more' : Char → Bool} (h : Lexeme text t more)
    (h' : Lexeme other u more') (joint : u.starts = t.leads) :
    ∀ c ∈ other.head?, more c = false := by
  intro c hc
  obtain ⟨cs, rfl⟩ := List.head?_eq_some_iff.mp hc
  have begins := h'.begins.2
  rw [← Bool.not_eq_true]
  intro hm
  have goes := h.goesOn hm
  rw [joint] at begins
  cases leads : t.leads with
  | true =>
    rw [leads] at begins goes
    exact begins goes
  | false =>
    rw [leads] at begins goes
    exact absurd (goes : isWordChar c = true) (by simp [show isWordChar c = false from begins])

/-! ### The whole text -/

/-- Tokens in print begin with a spelling of the first of them. -/
theorem Spelled.first (h : Spelled ts cs) :
    ∃ text t more rest, Lexeme text t more ∧ cs = text ++ rest ∧ t ∈ ts.head? := by
  cases h with
  | last h => exact ⟨_, _, _, [], h, (List.append_nil _).symm, rfl⟩
  | next h => exact ⟨_, _, _, _, h, List.append_assoc .., rfl⟩

theorem Spelled.tight (h : Spelled ts cs) : Tight cs := by
  induction h with
  | last h => exact h.tight
  | @next text gap cs t ts more h _ _ ih => exact h.tight.append gap ih

theorem Lexes.blanks {gap : List Char} (h : Lexes cs ts)
    (blank : ∀ c ∈ gap, Text.isBlank c = true) : Lexes (gap ++ cs) ts := by
  induction gap with
  | nil => exact h
  | cons c gap ih =>
    obtain ⟨hc, behind⟩ := List.forall_mem_cons.mp blank
    exact .blank hc (ih behind)

/-- A phrase in print has no other tokens. -/
theorem Spelled.lexes (h : Spelled ts cs)
    (joint : List.IsChain (fun t u => u.starts = t.leads) ts) : Lexes cs ts := by
  induction h with
  | @last text t more h =>
    rw [← List.append_nil text]
    exact .token (.lexeme h nofun) .nil
  | @next text gap cs t ts more h blank others ih =>
    obtain ⟨meets, joint⟩ := List.isChain_cons.mp joint
    have longest : ∀ c ∈ (gap ++ cs).head?, more c = false := by
      cases gap with
      | nil =>
        obtain ⟨other, u, _, rest, h', rfl, first⟩ := others.first
        rw [List.nil_append, List.head?_append_of_ne_nil other h'.tight.ne_nil]
        exact h.apart h' (meets u first)
      | cons d gap =>
        rintro c ⟨⟩
        exact h.more_isBlank (blank d List.mem_cons_self)
    rw [List.append_assoc]
    exact .token (.lexeme h longest) ((ih joint).blanks blank)

theorem unwrap_of_head (h : ∀ c ∈ cs.head?, c ≠ '\x7b') : unwrap cs = cs := by
  have bare : Text.dropLeading? ['\x7b', '\x7b'] cs = none := by
    cases cs with
    | nil => rfl
    | cons c cs => simp [Text.dropLeading?, Ne.symm (h c rfl)]
  rw [unwrap, bare]
  rfl

/-- A text in print is not taken for one between braces. -/
theorem Spelled.unwrap (h : Spelled ts cs) : unwrap cs = cs := by
  obtain ⟨text, t, more, rest, first, rfl, _⟩ := h.first
  obtain ⟨c, text, rfl⟩ := List.exists_cons_of_ne_nil first.tight.ne_nil
  refine unwrap_of_head ?_
  rintro _ ⟨⟩
  exact first.begins.1

/-! ## Evaluation -/

/-- The text of a condition, trimmed and without braces around it. -/
def source (text : String) : List Char := Condition.unwrap (Text.trim text.toList)

/-- The expression that a text derives from the grammar. -/
def Denotes (cs : List Char) (e : Expression) : Prop := ∃ ts, Lexes cs ts ∧ Derives .either ts e

theorem parse_eq_some_ok_iff {text : String} (hne : source text ≠ []) :
    parse text.toList = .ok (some e) ↔ Denotes (source text) e := by
  have full : (source text).isEmpty = false := by simpa using hne
  change (if (source text).isEmpty then _ else _) = _ ↔ _
  rw [full, if_neg Bool.false_ne_true]
  simp only [Except.bind_eq_ok_iff, tokenize_eq_ok_iff, ofTokens_eq_ok_iff, Except.ok.injEq,
    Option.some.injEq]
  constructor
  · rintro ⟨ts, lexed, _, derived, rfl⟩
    exact ⟨ts, lexed, derived⟩
  · rintro ⟨ts, lexed, derived⟩
    exact ⟨ts, lexed, e, derived, rfl⟩

theorem parse_ne_none {text : String} (hne : source text ≠ []) : parse text.toList ≠ .ok none := by
  have full : (source text).isEmpty = false := by simpa using hne
  change (if (source text).isEmpty then _ else _) ≠ _
  rw [full, if_neg Bool.false_ne_true]
  intro h
  obtain ⟨_, _, h⟩ := Except.bind_eq_ok_iff.mp h
  obtain ⟨_, _, h⟩ := Except.bind_eq_ok_iff.mp h
  cases h

/-- What the grammar says about the evaluation of conditions. -/
structure FollowsGrammar (evaluate : String → Value → Except Error Bool) : Prop where
  /-- an expression in print has its truth value -/
  printed : ∀ (context : Value) {e ts cs text}, Printed .either e ts → Spelled ts cs →
    Padded cs text → evaluate (String.ofList text) context = .ok (e.holds context)
  /-- every expression can be printed with parentheses only where they are needed -/
  printable : ∀ e : Expression, Printed .either e e.tokens
  /-- strings in either quote are spelled with a backslash before quotes and backslashes -/
  strings : ∀ {quote : Char} (body : List Char), quote = '"' ∨ quote = '\'' →
    Lexeme (quoted quote body) (.literal (.string (String.ofList body))) never
  /-- identifiers joined by dots spell a path, unless they are a word of their own -/
  paths : ∀ {segments : List (List Char)}, segments ≠ [] → (∀ s ∈ segments, Identifier s) →
    ¬ Reserved (String.ofList (dotted segments)) →
      Lexeme (dotted segments) (.path (String.ofList (dotted segments))) isWordChar
  /-- nothing but what the grammar derives has a truth value -/
  derived : ∀ (text : String) (context : Value) (b : Bool), source text ≠ [] →
    (evaluate text context = .ok b ↔ ∃ e, Denotes (source text) e ∧ e.holds context = b)
  /-- all else is an error that names the condition -/
  otherwise : ∀ (text : String) (context : Value), source text ≠ [] →
    ((∃ fault, evaluate text context = .error ⟨text, fault⟩) ↔ ¬ ∃ e, Denotes (source text) e)

theorem evaluate_eq_ok_iff {text : String} {context : Value} {b : Bool} (hne : source text ≠ []) :
    evaluate text context = .ok b ↔ ∃ e, Denotes (source text) e ∧ e.holds context = b := by
  simp only [← parse_eq_some_ok_iff hne]
  unfold evaluate
  cases h : parse text.toList with
  | error fault => simp
  | ok found =>
    cases found with
    | none => exact absurd h (parse_ne_none hne)
    | some e => simp

theorem evaluate_eq_error_iff {text : String} {context : Value} (hne : source text ≠ []) :
    (∃ fault, evaluate text context = .error ⟨text, fault⟩) ↔ ¬ ∃ e, Denotes (source text) e := by
  simp only [← parse_eq_some_ok_iff hne]
  unfold evaluate
  cases h : parse text.toList with
  | error fault => simp
  | ok found =>
    cases found with
    | none => exact absurd h (parse_ne_none hne)
    | some e => simp

theorem evaluate_printed (context : Value) (printed : Printed .either e ts)
    (spelled : Spelled ts cs) (padded : Padded cs text) :
    evaluate (String.ofList text) context = .ok (e.holds context) := by
  obtain ⟨e', derived, holds⟩ := printed.derives
  have trimmed : source (String.ofList text) = cs := by
    rw [source, String.toList_ofList, Text.trim_of_padded padded spelled.tight, spelled.unwrap]
  have full : source (String.ofList text) ≠ [] := trimmed ▸ spelled.tight.ne_nil
  have lexed := spelled.lexes derived.phrase.joint
  exact (evaluate_eq_ok_iff full).mpr ⟨e', ⟨ts, trimmed ▸ lexed, derived⟩, holds context⟩

/-- Conditions are evaluated as their grammar says. -/
theorem evaluate_follows : FollowsGrammar evaluate :=
  ⟨fun context => evaluate_printed context, fun e => (printed_tokens e).1,
    fun body kind => lexeme_quoted kind body, lexeme_dotted, fun _ _ _ => evaluate_eq_ok_iff,
    fun _ _ => evaluate_eq_error_iff⟩

/-- Two operators of different strength, one of them in parentheses. -/
def guard : Expression :=
  .both (.negation (.either (.truth (.path "a")) (.compare .lt (.path "n.m") (.literal .null))))
    (.truth (.literal (.string "it's")))

theorem evaluate_guard :
    evaluate " !(a||n.m <null)&& 'it\\'s'" (.object []) = .ok (guard.holds (.object [])) := by
  have none : ∀ c ∈ ([] : List Char), Text.isBlank c = true := nofun
  have one : ∀ c ∈ [' '], Text.isBlank c = true := List.all_eq_true.mp (by decide)
  have free : ∀ word : String, word ∉ Literal.keywords.map (·.1) → ¬ Reserved word :=
    fun word h ⟨_, known⟩ => h (List.mem_map_of_mem known)
  have a : Lexeme ['a'] (.path "a") isWordChar := .path rfl nofun (free _ (by decide))
  have path : Lexeme ['n', '.', 'm'] (.path "n.m") isWordChar :=
    .path rfl (List.all_eq_true.mp (by decide)) (free _ (by decide))
  have sign : Lexeme ['<'] (.comparison .lt) isEquals := .sign (by simp [signs])
  have null : Lexeme "null".toList (.literal .null) isWordChar :=
    .keyword (by simp [Literal.keywords])
  have string : Lexeme "'it\\'s'".toList (.literal (.string "it's")) never :=
    .string (.inr rfl) <| .plain (by decide) (by decide) <| .plain (by decide) (by decide) <|
      .escaped '\'' <| .plain (by decide) (by decide) .close
  have spelled : Spelled guard.tokens "!(a||n.m <null)&& 'it\\'s'".toList :=
    .next .negation none <| .next .opening none <| .next a none <| .next .either none <|
      .next path one <| .next sign none <| .next null none <| .next .closing none <|
      .next .both one <| .last string
  have padded : Padded "!(a||n.m <null)&& 'it\\'s'".toList
      " !(a||n.m <null)&& 'it\\'s'".toList := @Padded.mk [' '] _ [] one none
  exact evaluate_follows.printed _ (evaluate_follows.printable guard) spelled padded

end CommandContract.Condition
