import CommandContract.Proofs.Except
import CommandContract.Proofs.Json.Outline
import CommandContract.Proofs.Literal.Grammar
import CommandContract.Proofs.Number.Text
import CommandContract.Proofs.Text.Class

set_option autoImplicit false

/-!
# The reader and the grammar of literals

The reader of literals accepts exactly what the grammar derives, with the meaning that it has
there: `Literal.parse_eq_ok_iff`.
-/
namespace CommandContract.Literal

open Text (Run run_iff)

variable {cs ds es rest : List Char} {quote : Char} {v : Value} {fuel : Nat}

/-! ## Blanks and runs -/

/-- Does not begin with a blank. -/
def Solid (cs : List Char) : Prop := ∀ c ∈ cs.head?, Text.isBlank c = false

theorem solid_cons {c : Char} (h : Text.isBlank c = false) (cs : List Char) : Solid (c :: cs) := by
  rintro d hd
  cases hd
  exact h

theorem blanks_skipBlank (cs : List Char) : Blanks cs (skipBlank cs) :=
  Text.skips_dropWhile Text.isBlank cs

theorem blanks_of_eq (h : skipBlank cs = ds) : Blanks cs ds := h ▸ blanks_skipBlank cs

theorem solid_skipBlank (cs : List Char) : Solid (skipBlank cs) :=
  (run_iff.mpr (List.span_eq_takeWhile_dropWhile Text.isBlank cs)).maximal

theorem skipBlank_of_blanks (h : Blanks cs ds) (solid : Solid ds) : skipBlank cs = ds :=
  h.dropWhile_eq solid

/-- A separator in front of which blanks stand is found. -/
theorem skipBlank_of_separator {c : Char} (h : Blanks cs (c :: ds)) (hc : Text.isBlank c = false) :
    skipBlank cs = c :: ds :=
  skipBlank_of_blanks h (solid_cons hc ds)

/-! ## Strings -/

theorem unitChar_eq {code : Nat} (h : code < 65536) :
    unitChar code = if code.isValidChar then Char.ofNat code else '\ufffd' := by
  unfold unitChar Nat.isValidChar
  by_cases hs : 0xD800 ≤ code ∧ code ≤ 0xDFFF
  · rw [if_pos hs, if_neg (by omega)]
  · rw [if_neg hs, if_pos (by omega)]

theorem hexValue?_lt {c : Char} {n : Nat} (h : Json.hexValue? c = some n) : n < 16 := by
  have le_iff : ∀ a b : Char, a ≤ b ↔ a.toNat ≤ b.toNat := fun _ _ => UInt32.le_iff_toNat_le
  simp only [Json.hexValue?, le_iff] at h
  split at h
  · rename_i hc
    have : c.toNat ≤ 57 := hc.2
    cases h
    omega
  · split at h
    · rename_i hc
      have : c.toNat ≤ 102 := hc.2
      cases h
      omega
    · split at h
      · rename_i hc
        have : c.toNat ≤ 70 := hc.2
        cases h
        omega
      · cases h

theorem hexFour?_lt {code : Nat} (h : Json.hexFour? cs = some (code, rest)) : code < 65536 := by
  obtain ⟨_, _, _, _, a, b, c, d, _, ha, hb, hc, hd, rfl⟩ := Json.hexFour?_eq_some h
  have := hexValue?_lt ha
  have := hexValue?_lt hb
  have := hexValue?_lt hc
  have := hexValue?_lt hd
  omega

theorem readUnit_succ_eq_ok_iff {n unit : Nat} {c : Char} :
    readUnit (n + 1) unit cs = .ok (c, rest) ↔
      ∃ d digit ds, cs = d :: ds ∧ Json.hexValue? d = some digit ∧
        readUnit n (unit * 16 + digit) ds = .ok (c, rest) := by
  cases cs with
  | nil => simp [readUnit]
  | cons d ds =>
    simp only [readUnit]
    cases hd : Json.hexValue? d with
    | none =>
      refine ⟨nofun, ?_⟩
      rintro ⟨_, _, _, he, h, _⟩
      cases he
      rw [hd] at h
      cases h
    | some digit =>
      refine ⟨fun h => ⟨d, digit, ds, rfl, hd, h⟩, ?_⟩
      rintro ⟨_, _, _, he, h, hr⟩
      cases he
      rw [hd] at h
      cases h
      exact hr

theorem readUnit_eq_ok_iff {c : Char} :
    readUnit 4 0 cs = .ok (c, rest) ↔
      ∃ code, Json.hexFour? cs = some (code, rest) ∧ c = unitChar code := by
  have done : ∀ {code : Nat} {ds : List Char}, readUnit 0 code ds = .ok (c, rest) ↔
      (if code.isValidChar then Char.ofNat code else '\ufffd') = c ∧ ds = rest := by
    intro code ds
    rw [readUnit, Except.ok.injEq, Prod.mk.injEq]
  simp only [readUnit_succ_eq_ok_iff, done, Nat.zero_mul, Nat.zero_add]
  constructor
  · rintro ⟨w, a, _, rfl, ha, x, b, _, rfl, hb, y, c, _, rfl, hc, z, d, tail, rfl, hd, rfl, rfl⟩
    have four : Json.hexFour? (w :: x :: y :: z :: tail) =
        some (((a * 16 + b) * 16 + c) * 16 + d, tail) := by
      simp [Json.hexFour?, ha, hb, hc, hd]
    exact ⟨_, four, (unitChar_eq (hexFour?_lt four)).symm⟩
  · rintro ⟨code, four, rfl⟩
    have small := unitChar_eq (hexFour?_lt four)
    obtain ⟨w, x, y, z, a, b, c, d, hcs, ha, hb, hc, hd, he⟩ := Json.hexFour?_eq_some four
    subst hcs he
    exact ⟨w, a, _, rfl, ha, x, b, _, rfl, hb, y, c, _, rfl, hc, z, d, _, rfl, hd, small.symm, rfl⟩

theorem escape_coded_iff {c : Char} :
    Escape ('u' :: cs) c rest ↔ readUnit 4 0 cs = .ok (c, rest) := by
  rw [readUnit_eq_ok_iff]
  constructor
  · intro h
    cases h with
    | named h =>
      simp [namedEscapes] at h
    | coded h => exact ⟨_, h, rfl⟩
    | itself coded => exact absurd rfl coded
  · rintro ⟨code, h, rfl⟩
    exact .coded h

theorem unescape_of_mem {letter c : Char} (h : (letter, c) ∈ namedEscapes) :
    unescape letter = c := by
  simp only [namedEscapes, List.mem_cons, Prod.mk.injEq, List.not_mem_nil, or_false] at h
  rcases h with ⟨rfl, rfl⟩ | ⟨rfl, rfl⟩ | ⟨rfl, rfl⟩ | ⟨rfl, rfl⟩ | ⟨rfl, rfl⟩ | ⟨rfl, rfl⟩ <;> rfl

theorem unescape_of_not_mem {letter : Char} (h : ∀ e ∈ namedEscapes, e.1 ≠ letter) :
    unescape letter = letter := by
  simp only [namedEscapes, List.forall_mem_cons] at h
  obtain ⟨n, t, r, b, f, zero, _⟩ := h
  unfold unescape
  split <;> first | rfl | contradiction

theorem escape_letter_iff {letter c : Char} (hu : letter ≠ 'u') :
    Escape (letter :: cs) c rest ↔ c = unescape letter ∧ rest = cs := by
  constructor
  · intro h
    cases h with
    | named h => exact ⟨(unescape_of_mem h).symm, rfl⟩
    | coded => exact absurd rfl hu
    | itself _ named => exact ⟨(unescape_of_not_mem named).symm, rfl⟩
  · rintro ⟨rfl, rfl⟩
    by_cases h : ∃ e ∈ namedEscapes, e.1 = letter
    · obtain ⟨⟨_, c⟩, he, rfl⟩ := h
      rw [unescape_of_mem he]
      exact .named he _
    · have named : ∀ e ∈ namedEscapes, e.1 ≠ letter := fun e he hl => h ⟨e, he, hl⟩
      rw [unescape_of_not_mem named]
      exact .itself hu named _

theorem Escape.length_lt {c : Char} (h : Escape cs c rest) : rest.length < cs.length := by
  cases h with
  | named => exact Nat.lt_succ_self _
  | coded h =>
    have := Json.hexFour?_length h
    rw [List.length_cons]
    omega
  | itself => exact Nat.lt_succ_self _

theorem quoted_of_readQuoted {body : List Char}
    (h : readQuoted quote fuel cs = .ok (body, rest)) : Quoted quote cs body rest := by
  induction fuel generalizing cs body with
  | zero => cases h
  | succ fuel ih =>
    cases cs with
    | nil => cases h
    | cons c cs =>
      simp only [readQuoted] at h
      split at h
      · rename_i hc
        subst hc
        cases h
        exact .close rest
      · rename_i other
        split at h
        · rename_i hc
          subst hc
          split at h
          · cases h
          · obtain ⟨⟨c, after⟩, hc, h⟩ := Except.bind_eq_ok_iff.mp h
            obtain ⟨⟨body, _⟩, hb, h⟩ := Except.bind_eq_ok_iff.mp h
            cases h
            exact .escaped (escape_coded_iff.mpr hc) (ih hb)
          · rename_i letter cs hu
            obtain ⟨⟨body, _⟩, hb, h⟩ := Except.bind_eq_ok_iff.mp h
            cases h
            exact .escaped ((escape_letter_iff hu).mpr ⟨rfl, rfl⟩) (ih hb)
        · rename_i bare
          obtain ⟨⟨body, _⟩, hb, h⟩ := Except.bind_eq_ok_iff.mp h
          cases h
          exact .plain other bare (ih hb)

theorem readQuoted_of_quoted (hq : quote ≠ '\\') {body : List Char} (h : Quoted quote cs body rest)
    (enough : cs.length < fuel) : readQuoted quote fuel cs = .ok (body, rest) := by
  induction h generalizing fuel with
  | close =>
    cases fuel with
    | zero => exact absurd enough (Nat.not_lt_zero _)
    | succ fuel => simp [readQuoted]
  | plain other bare _ ih =>
    cases fuel with
    | zero => exact absurd enough (Nat.not_lt_zero _)
    | succ fuel =>
      have below := ih (Nat.lt_of_succ_lt_succ enough)
      simp only [readQuoted, other, bare, if_false, below]
      rfl
  | @escaped c cs after body rest h _ ih =>
    cases fuel with
    | zero => exact absurd enough (Nat.not_lt_zero _)
    | succ fuel =>
      have shorter := h.length_lt
      rw [List.length_cons] at enough
      have below : readQuoted quote fuel after = .ok (body, rest) := ih (by omega)
      simp only [readQuoted, Ne.symm hq, if_false, if_true]
      cases cs with
      | nil => exact absurd shorter (Nat.not_lt_zero _)
      | cons letter cs =>
        by_cases hu : letter = 'u'
        · subst hu
          simp only [escape_coded_iff.mp h, bind, Except.bind, below]
        · obtain ⟨rfl, rfl⟩ := (escape_letter_iff hu).mp h
          simp only [below]
          rfl

theorem quotedText_iff {s : String} (kind : quote = '"' ∨ quote = '\'') :
    QuotedText (quote :: cs) s rest ↔ readString quote cs = .ok (s, rest) := by
  have hq : quote ≠ '\\' := by
    rcases kind with rfl | rfl <;> decide
  constructor
  · rintro ⟨_, h⟩
    rw [readString, readQuoted_of_quoted hq h (Nat.lt_succ_self _)]
    rfl
  · intro h
    obtain ⟨⟨body, _⟩, hb, h⟩ := Except.bind_eq_ok_iff.mp h
    cases h
    exact .mk kind (quoted_of_readQuoted hb)

theorem QuotedText.kind {s : String} (h : QuotedText cs s rest) :
    ∃ quote ds, cs = quote :: ds ∧ (quote = '"' ∨ quote = '\'') := by
  cases h with
  | mk kind => exact ⟨_, _, rfl, kind⟩

theorem not_quotedText {c : Char} {s : String} (kind : ¬ (c = '"' ∨ c = '\'')) :
    ¬ QuotedText (c :: cs) s rest := by
  intro h
  obtain ⟨_, _, he, other⟩ := h.kind
  cases he
  exact kind other

theorem Quoted.length_lt {body : List Char} (h : Quoted quote cs body rest) :
    rest.length < cs.length := by
  induction h with
  | close => exact Nat.lt_succ_self _
  | plain _ _ _ ih => exact Nat.lt_succ_of_lt ih
  | escaped h _ ih => exact Nat.lt_succ_of_lt (Nat.lt_trans ih h.length_lt)

theorem QuotedText.length_lt {s : String} (h : QuotedText cs s rest) :
    rest.length < cs.length := by
  cases h with
  | mk _ h => exact Nat.lt_succ_of_lt h.length_lt

/-! ## Names, numbers and words -/

theorem isWordChar_of_start {c : Char} (h : isWordStart c = true ∨ c.isDigit = true) :
    isWordChar c = true := by
  rcases h with h | h
  · simp only [isWordStart, Bool.or_eq_true, decide_eq_true_eq] at h
    rcases h with (h | rfl) | rfl
    · simp [isWordChar, Text.isAlphanumeric, h]
    · rfl
    · rfl
  · simp [isWordChar, Text.isAlphanumeric_of_isDigit h]

theorem isBlank_of_isWordStart {c : Char} (h : isWordStart c = true) : Text.isBlank c = false := by
  rw [← Bool.not_eq_true]
  intro blank
  simp only [isWordStart, Text.isAlphabetic_of_isBlank blank, Bool.false_or, Bool.or_eq_true,
    decide_eq_true_eq] at h
  rcases h with rfl | rfl <;> exact absurd blank (by decide)

theorem isBlank_of_isNumberStart {c : Char} (h : isNumberStart c = true) :
    Text.isBlank c = false := by
  refine isBlank_of_isNumeralChar ?_
  simp only [isNumberStart, Bool.or_eq_true, decide_eq_true_eq] at h
  rcases h with ((h | rfl) | rfl) | rfl
  · exact isNumeralChar_of_isDigit h
  all_goals rfl

theorem key_iff {name : String} : Key cs name rest ↔ readKey cs = .ok (name, rest) := by
  cases cs with
  | nil =>
    refine ⟨fun h => ?_, nofun⟩
    cases h with
    | quoted h =>
      obtain ⟨_, _, he, _⟩ := h.kind
      cases he
  | cons c cs =>
    rw [readKey]
    by_cases kind : c = '"' ∨ c = '\''
    · rw [if_pos kind, ← quotedText_iff kind]
      refine ⟨fun h => ?_, .quoted⟩
      cases h with
      | quoted h => exact h
      | bare start =>
        have plain : ¬ (isWordStart c = true ∨ c.isDigit = true) := by
          rcases kind with rfl | rfl <;> decide
        exact absurd start plain
    · rw [if_neg kind]
      by_cases start : isWordStart c = true ∨ c.isDigit = true
      · rw [if_pos (by simpa using start), Except.ok.injEq]
        constructor
        · intro h
          cases h with
          | quoted h => exact absurd h (not_quotedText kind)
          | bare _ h => rw [run_iff.mp h]
        · intro h
          cases h
          exact .bare start (run_iff.mpr rfl)
      · rw [if_neg (by simpa using start)]
        refine ⟨fun h => ?_, nofun⟩
        cases h with
        | quoted h => exact absurd h (not_quotedText kind)
        | bare other => exact absurd other start

theorem Key.solid {name : String} (h : Key cs name rest) : Solid cs := by
  cases h with
  | quoted h =>
    obtain ⟨quote, _, rfl, kind⟩ := h.kind
    refine solid_cons ?_ _
    rcases kind with rfl | rfl <;> decide
  | bare start =>
    refine solid_cons ?_ _
    rcases start with h | h
    · exact isBlank_of_isWordStart h
    · exact isBlank_of_isNumeralChar (isNumeralChar_of_isDigit h)

theorem Key.length_lt {name : String} (h : Key cs name rest) : rest.length < cs.length := by
  cases h with
  | quoted h => exact h.length_lt
  | bare start h => exact h.length_lt (h.ne_nil (isWordChar_of_start start))

theorem Numeral.length_lt {n : Number} (h : Numeral cs n rest) : rest.length < cs.length := by
  cases h with
  | mk start h =>
    refine h.length_lt (h.ne_nil ?_)
    simp [isNumberChar, start]

theorem keywords_ne_nil {word : String} (h : (word, v) ∈ keywords) : word.toList ≠ [] := by
  simp only [keywords, List.mem_cons, Prod.mk.injEq, List.not_mem_nil, or_false] at h
  rcases h with ⟨rfl, _⟩ | ⟨rfl, _⟩ | ⟨rfl, _⟩ | ⟨rfl, _⟩ <;> decide

theorem dropPlus_eq (text : List Char) :
    (Text.dropLeading? ['+'] text).getD text = dropPlus text := by
  cases text with
  | nil => rfl
  | cons c text =>
    by_cases hc : c = '+'
    · subst hc
      rfl
    · have other : dropPlus (c :: text) = c :: text := by
        unfold dropPlus
        split
        · rename_i he
          exact absurd (List.cons.inj he).1 hc
        · rfl
      rw [other, Text.dropLeading?, if_neg (by simpa using Ne.symm hc)]
      rfl

theorem numeral_iff {c : Char} {n : Number} (start : isNumberStart c = true) :
    Numeral (c :: cs) n rest ↔ readNumber (c :: cs) = .ok (n, rest) := by
  simp only [readNumber, dropPlus_eq]
  constructor
  · rintro ⟨_, h, value⟩
    simp only [run_iff.mp h, value]
  · intro h
    split at h
    · rename_i value
      cases h
      exact .mk start (run_iff.mpr rfl) value
    · cases h

theorem keyword_iff {word : String} : wordValue? word = some v ↔ (word, v) ∈ keywords := by
  simp only [keywords, List.mem_cons, Prod.mk.injEq, List.not_mem_nil, or_false]
  constructor
  · intro h
    unfold wordValue? at h
    split at h
    · rename_i hw
      exact .inl ⟨hw, (Option.some.inj h).symm⟩
    · split at h
      · rename_i hw
        exact .inr (.inl ⟨hw, (Option.some.inj h).symm⟩)
      · split at h
        · rename_i hw
          exact .inr (.inr (hw.imp (⟨·, (Option.some.inj h).symm⟩) (⟨·, (Option.some.inj h).symm⟩)))
        · cases h
  · rintro (⟨rfl, rfl⟩ | ⟨rfl, rfl⟩ | ⟨rfl, rfl⟩ | ⟨rfl, rfl⟩) <;> rfl

theorem readWord_iff :
    readWord cs = .ok (v, rest) ↔
      ∃ word, (word, v) ∈ keywords ∧ Run isWordChar cs word.toList rest := by
  simp only [readWord]
  constructor
  · intro h
    split at h
    · rename_i value
      cases h
      refine ⟨_, keyword_iff.mp value, run_iff.mpr ?_⟩
      rw [String.toList_ofList]
    · cases h
  · rintro ⟨word, known, h⟩
    simp only [run_iff.mp h, String.ofList_toList, keyword_iff.mpr known]

/-! ## Steps of the reader -/

theorem readItems_close (enough : 0 < fuel) : readItems fuel (']' :: rest) = .ok ([], rest) := by
  cases fuel with
  | zero => exact absurd enough (Nat.lt_irrefl 0)
  | succ fuel => simp [readItems]

/-- A list of items that is not over goes on with one, and a comma or the bracket behind it. -/
theorem readItems_iff {vs : List Value} (hc : cs.head? ≠ some ']') :
    readItems (fuel + 1) cs = .ok (vs, rest) ↔
      ∃ v ds, readValue fuel cs = .ok (v, ds) ∧
        ((∃ es ws, skipBlank ds = ',' :: es ∧ readItems fuel (skipBlank es) = .ok (ws, rest) ∧
          vs = v :: ws) ∨
        (skipBlank ds = ']' :: rest ∧ vs = [v])) := by
  have goesOn : ∀ es, cs = ']' :: es → False := fun es he => hc (he ▸ rfl)
  rw [readItems.eq_3 _ _ goesOn]
  constructor
  · intro h
    obtain ⟨⟨v, ds⟩, hv, h⟩ := Except.bind_eq_ok_iff.mp h
    refine ⟨v, ds, hv, ?_⟩
    dsimp only at h
    split at h
    · rename_i es hs
      obtain ⟨⟨ws, _⟩, hw, h⟩ := Except.bind_eq_ok_iff.mp h
      cases h
      exact .inl ⟨es, ws, hs, hw, rfl⟩
    · rename_i es hs
      cases h
      exact .inr ⟨hs, rfl⟩
    · cases h
  · rintro ⟨v, ds, hv, ⟨es, ws, hs, hw, rfl⟩ | ⟨hs, rfl⟩⟩
    · simp only [hv, bind, Except.bind, hs, hw]
    · simp only [hv, bind, Except.bind, hs]

theorem readMembers_close (enough : 0 < fuel) :
    readMembers fuel ('\x7d' :: rest) = .ok ([], rest) := by
  cases fuel with
  | zero => exact absurd enough (Nat.lt_irrefl 0)
  | succ fuel => simp [readMembers]

/-- A list of members that is not over goes on with one, and a comma or the brace behind it. -/
theorem readMembers_iff {pairs : List (String × Value)} (hc : cs.head? ≠ some '\x7d') :
    readMembers (fuel + 1) cs = .ok (pairs, rest) ↔
      ∃ name ds es v fs, readKey cs = .ok (name, ds) ∧ skipBlank ds = ':' :: es ∧
        readValue fuel (skipBlank es) = .ok (v, fs) ∧
        ((∃ gs others, skipBlank fs = ',' :: gs ∧
          readMembers fuel (skipBlank gs) = .ok (others, rest) ∧ pairs = (name, v) :: others) ∨
        (skipBlank fs = '\x7d' :: rest ∧ pairs = [(name, v)])) := by
  have goesOn : ∀ es, cs = '\x7d' :: es → False := fun es he => hc (he ▸ rfl)
  rw [readMembers.eq_3 _ _ goesOn]
  constructor
  · intro h
    obtain ⟨⟨name, ds⟩, hk, h⟩ := Except.bind_eq_ok_iff.mp h
    dsimp only at h
    split at h
    · rename_i es hs
      obtain ⟨⟨v, fs⟩, hv, h⟩ := Except.bind_eq_ok_iff.mp h
      refine ⟨name, ds, es, v, fs, hk, hs, hv, ?_⟩
      dsimp only at h
      split at h
      · rename_i gs hg
        obtain ⟨⟨others, _⟩, ho, h⟩ := Except.bind_eq_ok_iff.mp h
        cases h
        exact .inl ⟨gs, others, hg, ho, rfl⟩
      · rename_i gs hg
        cases h
        exact .inr ⟨hg, rfl⟩
      · cases h
    · cases h
  · rintro ⟨name, ds, es, v, fs, hk, hs, hv, ⟨gs, others, hg, ho, rfl⟩ | ⟨hg, rfl⟩⟩
    · simp only [hk, bind, Except.bind, hs, hv, hg, ho]
    · simp only [hk, bind, Except.bind, hs, hv, hg]

/-- A reader whose result is put into another form. -/
theorem wrapped_eq_ok_iff {α β : Type} {read : Except Stop (α × List Char)} {f : α → β} {b : β} :
    (do let (a, rest) ← read
        .ok (f a, rest)) = (.ok (b, rest) : Except Stop (β × List Char)) ↔
      ∃ a, read = .ok (a, rest) ∧ b = f a := by
  rw [Except.bind_eq_ok_iff]
  constructor
  · rintro ⟨⟨a, _⟩, ha, h⟩
    cases h
    exact ⟨a, ha, rfl⟩
  · rintro ⟨a, ha, rfl⟩
    exact ⟨_, ha, rfl⟩

theorem readValue_array_iff :
    readValue (fuel + 1) ('[' :: cs) = .ok (v, rest) ↔
      ∃ items, readItems fuel (skipBlank cs) = .ok (items, rest) ∧ v = .array items := by
  rw [← wrapped_eq_ok_iff]
  simp [readValue]

theorem readValue_object_iff :
    readValue (fuel + 1) ('\x7b' :: cs) = .ok (v, rest) ↔
      ∃ pairs, readMembers fuel (skipBlank cs) = .ok (pairs, rest) ∧
        v = .object (Members.ofPairs pairs) := by
  rw [← wrapped_eq_ok_iff (f := fun pairs => Value.object (Members.ofPairs pairs))]
  simp [readValue]

theorem readValue_string_iff (kind : quote = '"' ∨ quote = '\'') :
    readValue (fuel + 1) (quote :: cs) = .ok (v, rest) ↔
      ∃ s, readString quote cs = .ok (s, rest) ∧ v = .string s := by
  rw [← wrapped_eq_ok_iff]
  rcases kind with rfl | rfl <;> simp [readValue]

theorem readValue_number_iff {c : Char} (start : isNumberStart c = true) :
    readValue (fuel + 1) (c :: cs) = .ok (v, rest) ↔
      ∃ n, readNumber (c :: cs) = .ok (n, rest) ∧ v = .number n := by
  have apart : c ≠ '\x7b' ∧ c ≠ '[' ∧ ¬ (c = '"' ∨ c = '\'') := by
    refine ⟨?_, ?_, ?_⟩
    · rintro rfl
      exact absurd start (by decide)
    · rintro rfl
      exact absurd start (by decide)
    · rintro (rfl | rfl) <;> exact absurd start (by decide)
  rw [← wrapped_eq_ok_iff]
  simp only [readValue, apart, if_false, start, if_true]

theorem readValue_cons_cases {c : Char} (h : readValue (fuel + 1) (c :: cs) = .ok (v, rest)) :
    c = '\x7b' ∨ c = '[' ∨ (c = '"' ∨ c = '\'') ∨ isNumberStart c = true ∨
      readWord (c :: cs) = .ok (v, rest) := by
  by_cases brace : c = '\x7b'
  · exact .inl brace
  by_cases bracket : c = '['
  · exact .inr (.inl bracket)
  by_cases kind : c = '"' ∨ c = '\''
  · exact .inr (.inr (.inl kind))
  by_cases number : isNumberStart c = true
  · exact .inr (.inr (.inr (.inl number)))
  simp only [readValue, brace, bracket, kind, if_false] at h
  rw [if_neg number] at h
  split at h
  · exact .inr (.inr (.inr (.inr h)))
  · cases h

/-- The members that pairs make are the ones that the reader makes of them. -/
theorem collects_iff {pairs : List (String × Value)} {ms : Members Value} :
    Collects pairs ms ↔ ms = Members.ofPairs pairs := by
  constructor
  · rintro ⟨names, values⟩
    have once : (Members.keys ms).Nodup := by
      rw [names, ← Members.keys_ofPairs]
      exact Members.nodup_keys_ofPairs pairs
    refine Members.ext_get? (names.trans (Members.keys_ofPairs pairs).symm) once fun key => ?_
    rw [values, Members.get?_ofPairs]
  · rintro rfl
    exact ⟨Members.keys_ofPairs pairs, fun key => Members.get?_ofPairs key pairs⟩

/-! ## What is read gets shorter -/

mutual

theorem Spells.length_lt {cs rest : List Char} {v : Value} :
    Spells cs v rest → rest.length < cs.length
  | .keyword known h => h.length_lt fun he => keywords_ne_nil known he
  | .number h => h.length_lt
  | .string h => h.length_lt
  | .emptyArray blanks => Nat.lt_succ_of_lt blanks.length_lt
  | .array blanks h => Nat.lt_trans h.length_lt (Nat.lt_succ_of_le blanks.length_le)
  | .emptyObject blanks => Nat.lt_succ_of_lt blanks.length_lt
  | .object blanks h _ => Nat.lt_trans h.length_lt (Nat.lt_succ_of_le blanks.length_le)

theorem SpellsItems.length_lt {cs rest : List Char} {vs : List Value} :
    SpellsItems cs vs rest → rest.length < cs.length
  | .last h close => Nat.lt_trans close.length_lt h.length_lt
  | .trailing h comma close =>
    Nat.lt_trans close.length_lt (Nat.lt_trans comma.length_lt h.length_lt)
  | .more h comma blanks others =>
    Nat.lt_trans others.length_lt
      (Nat.lt_of_le_of_lt blanks.length_le (Nat.lt_trans comma.length_lt h.length_lt))

theorem SpellsMember.length_lt {cs rest : List Char} {m : String × Value} :
    SpellsMember cs m rest → rest.length < cs.length
  | .mk key colon blanks h =>
    Nat.lt_trans h.length_lt
      (Nat.lt_of_le_of_lt blanks.length_le (Nat.lt_trans colon.length_lt key.length_lt))

theorem SpellsMembers.length_lt {cs rest : List Char} {pairs : List (String × Value)} :
    SpellsMembers cs pairs rest → rest.length < cs.length
  | .last h close => Nat.lt_trans close.length_lt h.length_lt
  | .trailing h comma close =>
    Nat.lt_trans close.length_lt (Nat.lt_trans comma.length_lt h.length_lt)
  | .more h comma blanks others =>
    Nat.lt_trans others.length_lt
      (Nat.lt_of_le_of_lt blanks.length_le (Nat.lt_trans comma.length_lt h.length_lt))

end

/-! ## Soundness -/

/-- With this many steps the reader accepts only what the grammar derives. -/
structure SoundAt (fuel : Nat) : Prop where
  value : ∀ {cs v rest}, readValue fuel cs = .ok (v, rest) → Spells cs v rest
  items : ∀ {cs vs rest}, readItems fuel cs = .ok (vs, rest) →
    (vs = [] ∧ cs = ']' :: rest) ∨ SpellsItems cs vs rest
  members : ∀ {cs pairs rest}, readMembers fuel cs = .ok (pairs, rest) →
    (pairs = [] ∧ cs = '\x7d' :: rest) ∨ SpellsMembers cs pairs rest

theorem SoundAt.value_succ (sound : SoundAt fuel) (h : readValue (fuel + 1) cs = .ok (v, rest)) :
    Spells cs v rest := by
  cases cs with
  | nil => cases h
  | cons c cs =>
    rcases readValue_cons_cases h with rfl | rfl | kind | number | word
    · obtain ⟨pairs, hp, rfl⟩ := readValue_object_iff.mp h
      rcases sound.members hp with ⟨rfl, close⟩ | hp
      · exact .emptyObject (blanks_of_eq close)
      · exact .object (blanks_skipBlank cs) hp (collects_iff.mpr rfl)
    · obtain ⟨items, hi, rfl⟩ := readValue_array_iff.mp h
      rcases sound.items hi with ⟨rfl, close⟩ | hi
      · exact .emptyArray (blanks_of_eq close)
      · exact .array (blanks_skipBlank cs) hi
    · obtain ⟨s, hs, rfl⟩ := (readValue_string_iff kind).mp h
      exact .string ((quotedText_iff kind).mpr hs)
    · obtain ⟨n, hn, rfl⟩ := (readValue_number_iff number).mp h
      exact .number ((numeral_iff number).mpr hn)
    · obtain ⟨word, known, run⟩ := readWord_iff.mp word
      exact .keyword known run

theorem SoundAt.items_succ (sound : SoundAt fuel) {vs : List Value}
    (h : readItems (fuel + 1) cs = .ok (vs, rest)) :
    (vs = [] ∧ cs = ']' :: rest) ∨ SpellsItems cs vs rest := by
  by_cases hc : cs.head? = some ']'
  · obtain ⟨ds, rfl⟩ := List.head?_eq_some_iff.mp hc
    rw [readItems_close (Nat.succ_pos fuel)] at h
    cases h
    exact .inl ⟨rfl, rfl⟩
  · right
    obtain ⟨v, ds, hv, ⟨es, ws, comma, hw, rfl⟩ | ⟨close, rfl⟩⟩ := (readItems_iff hc).mp h
    · rcases sound.items hw with ⟨rfl, close⟩ | hw
      · exact .trailing (sound.value hv) (blanks_of_eq comma) (blanks_of_eq close)
      · exact .more (sound.value hv) (blanks_of_eq comma) (blanks_skipBlank es) hw
    · exact .last (sound.value hv) (blanks_of_eq close)

theorem SoundAt.members_succ (sound : SoundAt fuel) {pairs : List (String × Value)}
    (h : readMembers (fuel + 1) cs = .ok (pairs, rest)) :
    (pairs = [] ∧ cs = '\x7d' :: rest) ∨ SpellsMembers cs pairs rest := by
  by_cases hc : cs.head? = some '\x7d'
  · obtain ⟨ds, rfl⟩ := List.head?_eq_some_iff.mp hc
    rw [readMembers_close (Nat.succ_pos fuel)] at h
    cases h
    exact .inl ⟨rfl, rfl⟩
  · right
    obtain ⟨name, ds, es, v, fs, hk, colon, hv, tail⟩ := (readMembers_iff hc).mp h
    have member : SpellsMember cs (name, v) fs :=
      .mk (key_iff.mpr hk) (blanks_of_eq colon) (blanks_skipBlank es) (sound.value hv)
    rcases tail with ⟨gs, others, comma, ho, rfl⟩ | ⟨close, rfl⟩
    · rcases sound.members ho with ⟨rfl, close⟩ | ho
      · exact .trailing member (blanks_of_eq comma) (blanks_of_eq close)
      · exact .more member (blanks_of_eq comma) (blanks_skipBlank gs) ho
    · exact .last member (blanks_of_eq close)

theorem soundAt (fuel : Nat) : SoundAt fuel := by
  induction fuel with
  | zero => exact ⟨nofun, nofun, nofun⟩
  | succ fuel ih => exact ⟨ih.value_succ, ih.items_succ, ih.members_succ⟩

/-! ## Completeness -/

theorem readValue_letter {c : Char} (h : c = 't' ∨ c = 'f' ∨ c = 'n' ∨ c = 'u') :
    readValue (fuel + 1) (c :: cs) = readWord (c :: cs) := by
  rcases h with rfl | rfl | rfl | rfl <;>
    simp [readValue, isNumberStart, isWordStart, Text.isAlphabetic, Char.isAlpha, Char.isUpper,
      Char.isLower, Char.isDigit]

/-- A keyword begins with one of four letters. -/
theorem keyword_begins {word : String} (known : (word, v) ∈ keywords)
    (h : Run isWordChar cs word.toList rest) :
    ∃ c ds, cs = c :: ds ∧ (c = 't' ∨ c = 'f' ∨ c = 'n' ∨ c = 'u') := by
  have split := h.split
  simp only [keywords, List.mem_cons, Prod.mk.injEq, List.not_mem_nil, or_false] at known
  rcases known with ⟨rfl, _⟩ | ⟨rfl, _⟩ | ⟨rfl, _⟩ | ⟨rfl, _⟩
  · exact ⟨'t', _, split, .inl rfl⟩
  · exact ⟨'f', _, split, .inr (.inl rfl)⟩
  · exact ⟨'n', _, split, .inr (.inr (.inl rfl))⟩
  · exact ⟨'u', _, split, .inr (.inr (.inr rfl))⟩

/-- What a value begins with is no blank, and nothing that ends a list. -/
theorem Spells.begins (h : Spells cs v rest) :
    ∃ c ds, cs = c :: ds ∧ Text.isBlank c = false ∧ c ≠ ']' := by
  cases h with
  | keyword known h =>
    obtain ⟨c, ds, rfl, letter⟩ := keyword_begins known h
    refine ⟨c, ds, rfl, ?_⟩
    rcases letter with rfl | rfl | rfl | rfl <;> decide
  | number h =>
    cases h with
    | mk start =>
      refine ⟨_, _, rfl, isBlank_of_isNumberStart start, ?_⟩
      rintro rfl
      exact absurd start (by decide)
  | string h =>
    obtain ⟨quote, ds, rfl, kind⟩ := h.kind
    refine ⟨quote, ds, rfl, ?_⟩
    rcases kind with rfl | rfl <;> decide
  | emptyArray => exact ⟨_, _, rfl, by decide⟩
  | array => exact ⟨_, _, rfl, by decide⟩
  | emptyObject => exact ⟨_, _, rfl, by decide⟩
  | object => exact ⟨_, _, rfl, by decide⟩

theorem Spells.solid (h : Spells cs v rest) : Solid cs := by
  obtain ⟨c, ds, rfl, hc, _⟩ := h.begins
  exact solid_cons hc ds

theorem SpellsItems.spells {vs : List Value} (h : SpellsItems cs vs rest) :
    ∃ v ds, Spells cs v ds := by
  cases h with
  | last h => exact ⟨_, _, h⟩
  | trailing h => exact ⟨_, _, h⟩
  | more h => exact ⟨_, _, h⟩

theorem SpellsItems.solid {vs : List Value} (h : SpellsItems cs vs rest) : Solid cs := by
  obtain ⟨_, _, h⟩ := h.spells
  exact h.solid

theorem SpellsItems.head?_ne {vs : List Value} (h : SpellsItems cs vs rest) :
    cs.head? ≠ some ']' := by
  obtain ⟨_, _, h⟩ := h.spells
  obtain ⟨c, ds, rfl, _, hc⟩ := h.begins
  exact fun he => hc (Option.some.inj he)

theorem SpellsMembers.key {pairs : List (String × Value)} (h : SpellsMembers cs pairs rest) :
    ∃ name ds, Key cs name ds := by
  have named : ∀ {m ds}, SpellsMember cs m ds → ∃ name ds, Key cs name ds := by
    rintro _ _ ⟨key, _⟩
    exact ⟨_, _, key⟩
  cases h with
  | last h => exact named h
  | trailing h => exact named h
  | more h => exact named h

theorem SpellsMembers.solid {pairs : List (String × Value)} (h : SpellsMembers cs pairs rest) :
    Solid cs := by
  obtain ⟨_, _, h⟩ := h.key
  exact h.solid

theorem Key.head?_ne {name : String} (h : Key cs name rest) : cs.head? ≠ some '\x7d' := by
  intro he
  cases h with
  | quoted h =>
    obtain ⟨quote, ds, rfl, kind⟩ := h.kind
    cases he
    exact absurd kind (by decide)
  | bare start =>
    cases he
    exact absurd start (by decide)

theorem SpellsMembers.head?_ne {pairs : List (String × Value)} (h : SpellsMembers cs pairs rest) :
    cs.head? ≠ some '\x7d' := by
  obtain ⟨_, _, h⟩ := h.key
  exact h.head?_ne

/-- With this many steps the reader accepts all texts that are short enough. A value takes one step
and the list that begins with it another, without a character being read in between. -/
structure CompleteAt (fuel : Nat) : Prop where
  value : ∀ {cs v rest}, Spells cs v rest → 2 * cs.length ≤ fuel →
    readValue fuel cs = .ok (v, rest)
  items : ∀ {cs vs rest}, SpellsItems cs vs rest → 2 * cs.length + 1 ≤ fuel →
    readItems fuel cs = .ok (vs, rest)
  members : ∀ {cs pairs rest}, SpellsMembers cs pairs rest → 2 * cs.length + 1 ≤ fuel →
    readMembers fuel cs = .ok (pairs, rest)

theorem CompleteAt.value_succ (complete : CompleteAt fuel) (h : Spells cs v rest)
    (enough : 2 * cs.length ≤ fuel + 1) : readValue (fuel + 1) cs = .ok (v, rest) := by
  cases h with
  | keyword known h =>
    obtain ⟨c, ds, rfl, letter⟩ := keyword_begins known h
    rw [readValue_letter letter]
    exact readWord_iff.mpr ⟨_, known, h⟩
  | number h =>
    have hn := h
    cases h with
    | mk start => exact (readValue_number_iff start).mpr ⟨_, (numeral_iff start).mp hn, rfl⟩
  | string h =>
    have hs := h
    obtain ⟨quote, ds, rfl, kind⟩ := h.kind
    exact (readValue_string_iff kind).mpr ⟨_, (quotedText_iff kind).mp hs, rfl⟩
  | @emptyArray cs _ close =>
    refine readValue_array_iff.mpr ⟨[], ?_, rfl⟩
    have := close.length_lt
    rw [skipBlank_of_separator close (by decide)]
    rw [List.length_cons] at enough
    exact readItems_close (by omega)
  | array blanks h =>
    refine readValue_array_iff.mpr ⟨_, ?_, rfl⟩
    have := blanks.length_le
    rw [List.length_cons] at enough
    rw [skipBlank_of_blanks blanks h.solid]
    exact complete.items h (by omega)
  | emptyObject close =>
    refine readValue_object_iff.mpr ⟨[], ?_, rfl⟩
    have := close.length_lt
    rw [skipBlank_of_separator close (by decide)]
    rw [List.length_cons] at enough
    exact readMembers_close (by omega)
  | object blanks h collects =>
    refine readValue_object_iff.mpr ⟨_, ?_, by rw [collects_iff.mp collects]⟩
    have := blanks.length_le
    rw [List.length_cons] at enough
    rw [skipBlank_of_blanks blanks h.solid]
    exact complete.members h (by omega)

theorem CompleteAt.items_succ (complete : CompleteAt fuel) {vs : List Value}
    (h : SpellsItems cs vs rest) (enough : 2 * cs.length + 1 ≤ fuel + 1) :
    readItems (fuel + 1) cs = .ok (vs, rest) := by
  refine (readItems_iff h.head?_ne).mpr ?_
  cases h with
  | last h close =>
    exact ⟨_, _, complete.value h (by omega), .inr ⟨skipBlank_of_separator close (by decide), rfl⟩⟩
  | trailing h comma close =>
    have separator := skipBlank_of_separator comma (by decide)
    refine ⟨_, _, complete.value h (by omega), .inl ⟨_, [], separator, ?_, rfl⟩⟩
    have := h.length_lt
    rw [skipBlank_of_separator close (by decide)]
    exact readItems_close (by omega)
  | more h comma blanks others =>
    have separator := skipBlank_of_separator comma (by decide)
    refine ⟨_, _, complete.value h (by omega), .inl ⟨_, _, separator, ?_, rfl⟩⟩
    have := h.length_lt
    have := comma.length_lt
    have := blanks.length_le
    rw [skipBlank_of_blanks blanks others.solid]
    exact complete.items others (by omega)

theorem CompleteAt.members_succ (complete : CompleteAt fuel) {pairs : List (String × Value)}
    (h : SpellsMembers cs pairs rest) (enough : 2 * cs.length + 1 ≤ fuel + 1) :
    readMembers (fuel + 1) cs = .ok (pairs, rest) := by
  refine (readMembers_iff h.head?_ne).mpr ?_
  have member : ∀ {m : String × Value} {ds}, SpellsMember cs m ds → ∃ es fs,
      readKey cs = .ok (m.1, es) ∧ skipBlank es = ':' :: fs ∧
        readValue fuel (skipBlank fs) = .ok (m.2, ds) := by
    rintro _ _ ⟨key, colon, blanks, h⟩
    have := key.length_lt
    have := colon.length_lt
    have := blanks.length_le
    refine ⟨_, _, key_iff.mp key, skipBlank_of_separator colon (by decide), ?_⟩
    rw [skipBlank_of_blanks blanks h.solid]
    exact complete.value h (by omega)
  cases h with
  | last h close =>
    obtain ⟨es, fs, hk, colon, hv⟩ := member h
    exact ⟨_, _, _, _, _, hk, colon, hv, .inr ⟨skipBlank_of_separator close (by decide), rfl⟩⟩
  | trailing h comma close =>
    obtain ⟨es, fs, hk, colon, hv⟩ := member h
    have separator := skipBlank_of_separator comma (by decide)
    refine ⟨_, _, _, _, _, hk, colon, hv, .inl ⟨_, [], separator, ?_, rfl⟩⟩
    have := h.length_lt
    rw [skipBlank_of_separator close (by decide)]
    exact readMembers_close (by omega)
  | more h comma blanks others =>
    obtain ⟨es, fs, hk, colon, hv⟩ := member h
    have separator := skipBlank_of_separator comma (by decide)
    refine ⟨_, _, _, _, _, hk, colon, hv, .inl ⟨_, _, separator, ?_, rfl⟩⟩
    have := h.length_lt
    have := comma.length_lt
    have := blanks.length_le
    rw [skipBlank_of_blanks blanks others.solid]
    exact complete.members others (by omega)

theorem completeAt (fuel : Nat) : CompleteAt fuel := by
  induction fuel with
  | zero =>
    refine ⟨fun h enough => ?_, fun _ enough => ?_, fun _ enough => ?_⟩
    · have := h.length_lt
      omega
    · omega
    · omega
  | succ fuel ih => exact ⟨ih.value_succ, ih.items_succ, ih.members_succ⟩

/-! ## Whole texts -/

theorem readWhole_eq_ok_iff : readWhole cs = .ok v ↔ Stands cs v [] := by
  rw [readWhole, Except.bind_eq_ok_iff]
  constructor
  · rintro ⟨⟨w, es⟩, hw, h⟩
    dsimp only at h
    split at h
    · rename_i behind
      cases h
      exact .mk (blanks_skipBlank cs) ((soundAt _).value hw) (blanks_of_eq behind)
    · cases h
  · rintro ⟨before, h, behind⟩
    have := before.length_le
    have read := (completeAt (steps cs)).value h (by rw [steps]; omega)
    have ended := skipBlank_of_blanks behind nofun
    refine ⟨_, (skipBlank_of_blanks before h.solid).symm ▸ read, ?_⟩
    simp only [ended]

theorem parse_eq_ok_iff_readWhole {text : String} :
    parse text = .ok v ↔ readWhole text.toList = .ok v := by
  rw [parse]
  split
  · rename_i h
    rw [h]
    simp
  · rename_i h
    rw [h]
    simp

/-- A text is read as a value exactly if the grammar derives it with that value. -/
theorem parse_eq_ok_iff {text : String} {v : Value} :
    parse text = .ok v ↔ Stands text.toList v [] := by
  rw [parse_eq_ok_iff_readWhole, readWhole_eq_ok_iff]

end CommandContract.Literal
