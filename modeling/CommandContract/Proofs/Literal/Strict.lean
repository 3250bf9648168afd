import Mathlib
import CommandContract.Proofs.Json.Outline
import CommandContract.Proofs.Literal.Reading

set_option autoImplicit false

/-!
# JSON among the literals

A JSON text that escapes no surrogates is a literal, and as a literal it has the outline that it has
as JSON. Only its numerals are read in another way: `Literal.parse_of_ofJson?`. So it is wherever
such a text stands in a longer one.
-/
namespace CommandContract.Literal

open Json (Outline Mark Spelling Unpaired)
open Text (Run run_iff)

variable {cs ds es rest : List Char} {fuel : Nat}

/-! ## What JSON has in common with literals -/

theorem isBlank_of_isSpace (c : Char) (h : Json.isSpace c = true) : Text.isBlank c = true := by
  simp only [Json.isSpace, Bool.or_eq_true, decide_eq_true_eq] at h
  rcases h with ((rfl | rfl) | rfl) | rfl <;> decide

theorem skipBlank_of_spaces (h : Json.Spaces cs ds) (solid : Solid ds) : skipBlank cs = ds :=
  skipBlank_of_blanks (h.mono isBlank_of_isSpace) solid

/-- A word or a numeral does not go on here. -/
def Ends (rest : List Char) : Prop :=
  ∀ c ∈ rest.head?, isWordChar c = false ∧ isNumberChar c = false

theorem Ends.spaces (h : Json.Spaces ds rest) (ends : Ends rest) : Ends ds := by
  cases h with
  | stay => exact ends
  | past h =>
    rintro d hd
    cases hd
    simp only [Json.isSpace, Bool.or_eq_true, decide_eq_true_eq] at h
    rcases h with ((rfl | rfl) | rfl) | rfl <;> decide

theorem ends_of_separator {c : Char} (h : Json.Spaces ds (c :: rest))
    (hc : isWordChar c = false ∧ isNumberChar c = false) : Ends ds := by
  refine Ends.spaces h ?_
  rintro d hd
  cases hd
  exact hc

theorem escape_of_unescape? {l c : Char} (h : Json.unescape? l = some c) (cs : List Char) :
    Escape (l :: cs) c cs := by
  unfold Json.unescape? at h
  split at h <;> cases h
  · exact .itself (by decide) (by decide) cs
  · exact .itself (by decide) (by decide) cs
  · exact .itself (by decide) (by decide) cs
  all_goals exact .named (by decide) cs

theorem quoted_of_unpaired {marks : List Mark} (h : Json.Quoted cs marks rest)
    (unpaired : Unpaired marks) : Quoted '"' cs (marks.map Mark.char) rest := by
  induction h with
  | close rest => exact .close rest
  | plain other bare _ _ ih => exact .plain other bare (ih (List.forall_mem_cons.mp unpaired).2)
  | letter h _ ih =>
    exact .escaped (escape_of_unescape? h _) (ih (List.forall_mem_cons.mp unpaired).2)
  | coded h whole _ ih =>
    have char : unitChar _ = Char.ofNat _ := if_neg fun hs => whole ⟨hs.1, by omega⟩
    exact .escaped (char ▸ .coded h) (ih (List.forall_mem_cons.mp unpaired).2)
  | pair =>
    obtain ⟨_, he⟩ := (List.forall_mem_cons.mp unpaired).1
    cases he

theorem quotedText_of_unpaired {marks : List Mark} (h : Json.Quoted cs marks rest)
    (unpaired : Unpaired marks) : QuotedText ('"' :: cs) (Json.textOf marks) rest :=
  .mk (.inl rfl) (quoted_of_unpaired h unpaired)

theorem readWord_of_ends (word : String) {v : Value} (known : (word, v) ∈ keywords)
    (letters : word.toList.all isWordChar = true) (ends : Ends rest) :
    readWord (word.toList ++ rest) = .ok (v, rest) :=
  readWord_iff.mpr ⟨word, known, rfl, List.all_eq_true.mp letters, fun c hc => (ends c hc).1⟩

theorem isNumberChar_of_isDigit {c : Char} (h : c.isDigit = true) : isNumberChar c = true := by
  simp [isNumberChar, isNumberStart, h]

theorem isNumberStart_of_isNumeralStart {c : Char} (h : isNumeralStart c = true) :
    isNumberStart c = true := by
  simp only [isNumeralStart, Bool.or_eq_true, decide_eq_true_eq] at h
  rcases h with h | rfl
  · simp [isNumberStart, h]
  · rfl

theorem isNumberChar_text {e : Json.Exponent} (h : e.Valid) :
    ∀ c ∈ e.text, isNumberChar c = true := by
  have sign : ∀ c ∈ e.sign.toList, isNumberChar c = true := by
    rcases h.sign with hs | hs | hs <;> rw [hs] <;> exact List.all_eq_true.mp (by decide)
  refine List.forall_mem_cons.mpr ⟨?_, List.forall_mem_append.mpr
    ⟨sign, fun c hc => isNumberChar_of_isDigit (h.digits.2 c hc)⟩⟩
  rcases h.mark with hm | hm <;> rw [hm] <;> rfl

theorem isNumberChar_of_mem_text {t : Spelling} (h : t.Valid) :
    ∀ c ∈ t.text, isNumberChar c = true := by
  have sign : ∀ c ∈ (if t.negative then ['-'] else []), isNumberChar c = true := by
    split <;> exact List.all_eq_true.mp (by decide)
  have fraction : ∀ c ∈ Spelling.pointed t.fraction, isNumberChar c = true := by
    unfold Spelling.pointed
    split
    · exact nofun
    · exact List.forall_mem_cons.mpr
        ⟨rfl, fun c hc => isNumberChar_of_isDigit (h.fraction c hc)⟩
  have exponent : ∀ c ∈ (t.exponent.map Json.Exponent.text).getD [], isNumberChar c = true := by
    cases he : t.exponent with
    | none => exact nofun
    | some e => exact isNumberChar_text (h.exponent e he)
  simp only [Spelling.text, List.forall_mem_append]
  exact ⟨sign, fun c hc => isNumberChar_of_isDigit (h.whole.2 c hc), fraction, exponent⟩

/-- A numeral of JSON that does not go on is read as the number it is when it is typed. -/
theorem readNumber_text_iff {t : Spelling} {n : Number} (h : t.Valid) (ends : Ends rest) :
    readNumber (t.text ++ rest) = .ok (n, es) ↔ es = rest ∧ t.typed? = some n := by
  have run : Run isNumberChar (t.text ++ rest) t.text rest :=
    ⟨rfl, isNumberChar_of_mem_text h, fun c hc => (ends c hc).2⟩
  have unsigned : dropPlus t.text = t.text := by
    obtain ⟨c, cs, text, start⟩ := h.begins
    rw [text]
    unfold dropPlus
    split
    · rename_i he
      cases he
      exact absurd start (by decide)
    · rfl
  simp only [readNumber, run_iff.mp run, dropPlus_eq, unsigned, Json.Spelling.ofNumeral?_text h]
  cases t.typed? with
  | none => simp
  | some m =>
    simp only [Except.ok.injEq, Prod.mk.injEq, Option.some.injEq]
    exact ⟨fun h => ⟨h.2.symm, h.1⟩, fun h => ⟨h.2, h.1.symm⟩⟩

/-- What a value of JSON begins with. -/
theorem value_begins {o : Outline} (h : Json.Spells cs o rest) :
    Solid cs ∧ cs.head? ≠ some ']' := by
  have first : ∀ {c : Char} {cs : List Char}, Text.isBlank c = false → c ≠ ']' →
      Solid (c :: cs) ∧ (c :: cs).head? ≠ some ']' :=
    fun blank other => ⟨solid_cons blank _, fun he => other (Option.some.inj he)⟩
  cases h with
  | numeral h split =>
    obtain ⟨c, ds, text, start⟩ := h.begins
    have hc := isNumberStart_of_isNumeralStart start
    rw [split, text, List.cons_append]
    refine first (isBlank_of_isNumberStart hc) ?_
    rintro rfl
    exact absurd hc (by decide)
  | _ => exact first (by decide) (by decide)

theorem items_begin {os : List Outline} (h : Json.SpellsItems cs os rest) :
    Solid cs ∧ cs.head? ≠ some ']' := by
  cases h with
  | last h => exact value_begins h
  | more h => exact value_begins h

theorem members_begin {ms : List (List Mark × Outline)} (h : Json.SpellsMembers cs ms rest) :
    Solid cs ∧ cs.head? ≠ some '\x7d' := by
  have quote : ∀ {m : List Mark × Outline} {ds}, Json.SpellsMember cs m ds →
      Solid cs ∧ cs.head? ≠ some '\x7d' := by
    rintro _ _ ⟨⟩
    exact ⟨solid_cons (by decide) _, by simp⟩
  cases h with
  | last h => exact quote h
  | more h => exact quote h

theorem unpaired_append {as bs : List Mark} :
    Unpaired (as ++ bs) ↔ Unpaired as ∧ Unpaired bs :=
  List.forall_mem_append

theorem exists_map_iff {α β : Type} {p : Prop} {x : Option α} {f : α → β} {b : β} :
    (∃ a, (p ∧ x = some a) ∧ b = f a) ↔ p ∧ x.map f = some b := by
  rw [Option.map_eq_some_iff]
  constructor
  · rintro ⟨a, ⟨hp, hx⟩, rfl⟩
    exact ⟨hp, a, hx, rfl⟩
  · rintro ⟨hp, a, hx, rfl⟩
    exact ⟨a, ⟨hp, hx⟩, rfl⟩

/-! ## Reading JSON as a literal -/

/-- With this many steps the reader of literals reads JSON that is short enough as its outline says
with numerals as they are typed, and nothing else. -/
structure ReadsAt (fuel : Nat) : Prop where
  value : ∀ {cs o rest}, Json.Spells cs o rest → Unpaired o.marks → Ends rest →
    2 * cs.length ≤ fuel → ∀ w es, readValue fuel cs = .ok (w, es) ↔
      es = rest ∧ o.value? Spelling.typed? = some w
  items : ∀ {cs os rest}, Json.SpellsItems cs os rest → Unpaired (Outline.itemMarks os) →
    2 * cs.length + 1 ≤ fuel → ∀ ws es, readItems fuel cs = .ok (ws, es) ↔
      es = rest ∧ Outline.itemValues? Spelling.typed? os = some ws
  members : ∀ {cs ms rest}, Json.SpellsMembers cs ms rest → Unpaired (Outline.memberMarks ms) →
    2 * cs.length + 1 ≤ fuel → ∀ pairs es, readMembers fuel cs = .ok (pairs, es) ↔
      es = rest ∧ Outline.memberValues? Spelling.typed? ms = some pairs

theorem ReadsAt.value_succ (reads : ReadsAt fuel) {o : Outline} (h : Json.Spells cs o rest)
    (unpaired : Unpaired o.marks) (ends : Ends rest) (enough : 2 * cs.length ≤ fuel + 1)
    (w : Value) (es : List Char) : readValue (fuel + 1) cs = .ok (w, es) ↔
      es = rest ∧ o.value? Spelling.typed? = some w := by
  have settled : ∀ {v : Value}, readValue (fuel + 1) cs = .ok (v, rest) →
      o.value? Spelling.typed? = some v → (readValue (fuel + 1) cs = .ok (w, es) ↔
        es = rest ∧ o.value? Spelling.typed? = some w) := by
    intro v hv value
    rw [hv, value]
    simp [and_comm, eq_comm]
  cases h with
  | null rest =>
    refine settled ?_ rfl
    rw [readValue_letter (by simp)]
    exact readWord_of_ends "null" (by simp [keywords]) (by decide) ends
  | yes rest =>
    refine settled ?_ rfl
    rw [readValue_letter (by simp)]
    exact readWord_of_ends "true" (by simp [keywords]) (by decide) ends
  | no rest =>
    refine settled ?_ rfl
    rw [readValue_letter (by simp)]
    exact readWord_of_ends "false" (by simp [keywords]) (by decide) ends
  | numeral valid split =>
    obtain ⟨c, ds, text, start⟩ := valid.begins
    have number : ∀ n, readNumber (c :: (ds ++ rest)) = .ok (n, es) ↔ _ := fun n =>
      text ▸ readNumber_text_iff valid ends
    rw [split, text, List.cons_append,
      readValue_number_iff (isNumberStart_of_isNumeralStart start)]
    simp only [number]
    exact exists_map_iff
  | string h =>
    refine settled ((readValue_string_iff (.inl rfl)).mpr ⟨_, ?_, rfl⟩) rfl
    exact (quotedText_iff (.inl rfl)).mp (quotedText_of_unpaired h unpaired)
  | @emptyArray cs _ close =>
    refine settled (readValue_array_iff.mpr ⟨[], ?_, rfl⟩) rfl
    have := Text.Skips.length_lt close
    rw [List.length_cons] at enough
    rw [skipBlank_of_spaces close (solid_cons (by decide) _)]
    exact readItems_close (by omega)
  | array spaces h =>
    have := Text.Skips.length_le spaces
    rw [List.length_cons] at enough
    rw [readValue_array_iff, skipBlank_of_spaces spaces (items_begin h).1]
    simp only [reads.items h unpaired (by omega)]
    exact exists_map_iff
  | emptyObject close =>
    refine settled (readValue_object_iff.mpr ⟨[], ?_, rfl⟩) rfl
    have := Text.Skips.length_lt close
    rw [List.length_cons] at enough
    rw [skipBlank_of_spaces close (solid_cons (by decide) _)]
    exact readMembers_close (by omega)
  | object spaces h =>
    have := Text.Skips.length_le spaces
    rw [List.length_cons] at enough
    rw [readValue_object_iff, skipBlank_of_spaces spaces (members_begin h).1]
    simp only [reads.members h unpaired (by omega)]
    exact exists_map_iff

theorem ReadsAt.items_succ (reads : ReadsAt fuel) {os : List Outline}
    (h : Json.SpellsItems cs os rest) (unpaired : Unpaired (Outline.itemMarks os))
    (enough : 2 * cs.length + 1 ≤ fuel + 1) (ws : List Value) (es : List Char) :
    readItems (fuel + 1) cs = .ok (ws, es) ↔
      es = rest ∧ Outline.itemValues? Spelling.typed? os = some ws := by
  rw [readItems_iff (items_begin h).2]
  cases h with
  | last h close =>
    have first := reads.value h (unpaired_append.mp unpaired).1
      (ends_of_separator close (by decide)) (by omega)
    have ended := skipBlank_of_spaces close (solid_cons (by decide) _)
    simp only [first, Outline.itemValues?_cons_iff]
    constructor
    · rintro ⟨v, _, ⟨rfl, value⟩, ⟨_, _, comma, _⟩ | ⟨close, rfl⟩⟩
      · rw [ended] at comma
        cases comma
      · rw [ended] at close
        cases close
        exact ⟨rfl, v, [], value, rfl, rfl⟩
    · rintro ⟨rfl, v, _, value, ⟨⟩, rfl⟩
      exact ⟨v, _, ⟨rfl, value⟩, .inr ⟨ended, rfl⟩⟩
  | more h comma spaces others =>
    obtain ⟨here, there⟩ := unpaired_append.mp unpaired
    have first := reads.value h here (ends_of_separator comma (by decide)) (by omega)
    have separator := skipBlank_of_spaces comma (solid_cons (by decide) _)
    have next := skipBlank_of_spaces spaces (items_begin others).1
    have := h.length_lt
    have := Text.Skips.length_lt comma
    have := Text.Skips.length_le spaces
    have behind := reads.items others there (by omega)
    simp only [first, Outline.itemValues?_cons_iff]
    constructor
    · rintro ⟨v, _, ⟨rfl, value⟩, ⟨_, vs, comma, hvs, rfl⟩ | ⟨close, _⟩⟩
      · rw [separator] at comma
        cases comma
        rw [next] at hvs
        obtain ⟨rfl, values⟩ := (behind _ _).mp hvs
        exact ⟨rfl, v, vs, value, values, rfl⟩
      · rw [separator] at close
        cases close
    · rintro ⟨rfl, v, vs, value, values, rfl⟩
      refine ⟨v, _, ⟨rfl, value⟩, .inl ⟨_, vs, separator, ?_, rfl⟩⟩
      rw [next]
      exact (behind _ _).mpr ⟨rfl, values⟩

theorem ReadsAt.member (reads : ReadsAt fuel) {m : List Mark × Outline}
    (h : Json.SpellsMember cs m rest) (nameUnpaired : Unpaired m.1)
    (valueUnpaired : Unpaired m.2.marks) (ends : Ends rest) (enough : 2 * cs.length ≤ fuel + 1)
    (name : String) (v : Value) (es : List Char) :
    (∃ ds fs, readKey cs = .ok (name, ds) ∧ skipBlank ds = ':' :: fs ∧
      readValue fuel (skipBlank fs) = .ok (v, es)) ↔
      es = rest ∧ name = Json.textOf m.1 ∧ m.2.value? Spelling.typed? = some v := by
  obtain ⟨key, colon, spaces, h⟩ := h
  have named := key_iff.mp (.quoted (quotedText_of_unpaired key nameUnpaired))
  have separator := skipBlank_of_spaces colon (solid_cons (by decide) _)
  have next := skipBlank_of_spaces spaces (value_begins h).1
  have := key.length_lt
  have := Text.Skips.length_lt colon
  have := Text.Skips.length_le spaces
  rw [List.length_cons] at enough
  have value := reads.value h valueUnpaired ends (by omega) v es
  constructor
  · rintro ⟨ds, fs, hk, hs, hv⟩
    rw [named] at hk
    cases hk
    rw [separator] at hs
    cases hs
    rw [next] at hv
    exact ⟨(value.mp hv).1, rfl, (value.mp hv).2⟩
  · rintro ⟨ended, rfl, hv⟩
    exact ⟨_, _, named, separator, next.symm ▸ value.mpr ⟨ended, hv⟩⟩

theorem ReadsAt.members_succ (reads : ReadsAt fuel) {ms : List (List Mark × Outline)}
    (h : Json.SpellsMembers cs ms rest) (unpaired : Unpaired (Outline.memberMarks ms))
    (enough : 2 * cs.length + 1 ≤ fuel + 1) (pairs : List (String × Value)) (es : List Char) :
    readMembers (fuel + 1) cs = .ok (pairs, es) ↔
      es = rest ∧ Outline.memberValues? Spelling.typed? ms = some pairs := by
  rw [readMembers_iff (members_begin h).2]
  cases h with
  | last h close =>
    obtain ⟨here, there⟩ := unpaired_append.mp unpaired
    have first := reads.member h here (unpaired_append.mp there).1
      (ends_of_separator close (by decide)) (by omega)
    have ended := skipBlank_of_spaces close (solid_cons (by decide) _)
    rw [Outline.memberValues?_cons_iff]
    constructor
    · rintro ⟨name, ds, fs, v, _, hk, colon, hv, tail⟩
      obtain ⟨rfl, rfl, value⟩ := (first name v _).mp ⟨ds, fs, hk, colon, hv⟩
      rcases tail with ⟨_, _, comma, _⟩ | ⟨close, rfl⟩
      · rw [ended] at comma
        cases comma
      · rw [ended] at close
        cases close
        exact ⟨rfl, v, [], value, rfl, rfl⟩
    · rintro ⟨rfl, v, _, value, ⟨⟩, rfl⟩
      obtain ⟨ds, fs, hk, colon, hv⟩ := (first _ v _).mpr ⟨rfl, rfl, value⟩
      exact ⟨_, ds, fs, v, _, hk, colon, hv, .inr ⟨ended, rfl⟩⟩
  | more h comma spaces others =>
    obtain ⟨here, there⟩ := unpaired_append.mp unpaired
    obtain ⟨there, behind⟩ := unpaired_append.mp there
    have first := reads.member h here there (ends_of_separator comma (by decide)) (by omega)
    have separator := skipBlank_of_spaces comma (solid_cons (by decide) _)
    have next := skipBlank_of_spaces spaces (members_begin others).1
    have := h.length_lt
    have := Text.Skips.length_lt comma
    have := Text.Skips.length_le spaces
    have more := reads.members others behind (by omega)
    rw [Outline.memberValues?_cons_iff]
    constructor
    · rintro ⟨name, ds, fs, v, _, hk, colon, hv, tail⟩
      obtain ⟨rfl, rfl, value⟩ := (first name v _).mp ⟨ds, fs, hk, colon, hv⟩
      rcases tail with ⟨_, pairs, comma, hp, rfl⟩ | ⟨close, _⟩
      · rw [separator] at comma
        cases comma
        rw [next] at hp
        obtain ⟨rfl, values⟩ := (more _ _).mp hp
        exact ⟨rfl, v, pairs, value, values, rfl⟩
      · rw [separator] at close
        cases close
    · rintro ⟨rfl, v, pairs, value, values, rfl⟩
      obtain ⟨ds, fs, hk, colon, hv⟩ := (first _ v _).mpr ⟨rfl, rfl, value⟩
      refine ⟨_, ds, fs, v, _, hk, colon, hv, .inl ⟨_, pairs, separator, ?_, rfl⟩⟩
      rw [next]
      exact (more _ _).mpr ⟨rfl, values⟩

theorem readsAt (fuel : Nat) : ReadsAt fuel := by
  induction fuel with
  | zero =>
    refine ⟨fun h _ _ enough => ?_, fun _ _ enough => ?_, fun _ _ enough => ?_⟩
    · have := h.length_lt
      omega
    · omega
    · omega
  | succ fuel ih =>
    exact ⟨fun h unpaired ends enough => ih.value_succ h unpaired ends enough,
      fun h unpaired enough => ih.items_succ h unpaired enough,
      fun h unpaired enough => ih.members_succ h unpaired enough⟩

/-! ## Whole texts and parts of texts -/

theorem stands_of_value? {o : Outline} {w : Value} (h : Json.Stands cs o rest)
    (unpaired : Unpaired o.marks) (ends : Ends rest) (value : o.value? Spelling.typed? = some w) :
    Stands cs w rest := by
  obtain ⟨before, h, behind⟩ := h
  have reads := (readsAt _).value h unpaired (ends.spaces behind) (Nat.le_refl _)
  have read := (reads w _).mpr ⟨rfl, value⟩
  exact .mk (before.mono isBlank_of_isSpace) ((soundAt _).value read)
    (behind.mono isBlank_of_isSpace)

theorem value?_of_stands {o : Outline} {w : Value} (h : Json.Stands cs o rest)
    (unpaired : Unpaired o.marks) (ends : Ends rest) (literal : Stands cs w es) :
    o.value? Spelling.typed? = some w := by
  obtain ⟨before, h, behind⟩ := h
  obtain ⟨blanks, spells, _⟩ := literal
  -- both skip to the first character that is no blank
  have start := skipBlank_of_spaces before (value_begins h).1
  rw [skipBlank_of_blanks blanks spells.solid] at start
  subst start
  have reads := (readsAt _).value h unpaired (ends.spaces behind) (Nat.le_refl _)
  exact ((reads w _).mp ((completeAt _).value spells (Nat.le_refl _))).2

theorem parse_eq_ok_iff_value? {s : String} {o : Outline} {w : Value}
    (h : Json.Stands s.toList o []) (unpaired : Unpaired o.marks) :
    parse s = .ok w ↔ o.value? Spelling.typed? = some w := by
  rw [parse_eq_ok_iff_readWhole, readWhole_eq_ok_iff]
  exact ⟨value?_of_stands h unpaired nofun, stands_of_value? h unpaired nofun⟩

/-- What becomes of a JSON text of value `v` that is read as a literal. -/
structure Kept (s : String) (v : Value) (o : Outline) : Prop where
  /-- It is read with its outline and its numerals as they are when they are typed; it is refused if
  one of those is too large. -/
  whole : ∀ w, parse s = .ok w ↔ o.value? Spelling.typed? = some w
  /-- The same holds where it stands in a longer text. -/
  part : ∀ rest, Ends rest → ∀ w, (∃ es, Stands (s.toList ++ rest) w es) ↔
    o.value? Spelling.typed? = some w
  /-- Its value stays if its numerals are small or read alike. -/
  alike : (∀ t ∈ o.numerals, t.Small ∨ t.number? = t.typed?) → parse s = .ok v

/-- A JSON text that escapes no surrogates is a literal with the same outline. Only its numerals are
read in another way. -/
theorem parse_of_ofJson? {s : String} {v : Value} (h : Value.ofJson? s = some v) :
    ∃ o, Json.Stands s.toList o [] ∧ o.value? Spelling.number? = some v ∧
      (Unpaired o.marks → Kept s v o) := by
  obtain ⟨o, text, strict⟩ := Json.exists_outline h
  refine ⟨o, text, strict, fun unpaired => ⟨fun w => parse_eq_ok_iff_value? text unpaired, ?_, ?_⟩⟩
  · intro rest ends w
    have longer : Json.Stands (s.toList ++ rest) o rest := text.append
    exact ⟨fun ⟨es, literal⟩ => value?_of_stands longer unpaired ends literal,
      fun value => ⟨rest, stands_of_value? longer unpaired ends value⟩⟩
  · intro alike
    rw [parse_eq_ok_iff_value? text unpaired, ← strict]
    refine Outline.value?_congr fun t ht => ?_
    exact (alike t ht).elim (fun small => small.number?_eq.symm) Eq.symm

theorem parse_of_ofJson?_items :
    Value.ofJson? "[-7, \x7b\"a\": 18446744073709551615\x7d]" =
        some (.array [.int (-7), .object [("a", .int 18446744073709551615)]]) ∧
      ∃ o, Json.Stands "[-7, \x7b\"a\": 18446744073709551615\x7d]".toList o [] ∧
        o.value? Spelling.number? =
          some (.array [.int (-7), .object [("a", .int 18446744073709551615)]]) ∧
        (Unpaired o.marks → Kept "[-7, \x7b\"a\": 18446744073709551615\x7d]"
          (.array [.int (-7), .object [("a", .int 18446744073709551615)]]) o) :=
  have h : Value.ofJson? "[-7, \x7b\"a\": 18446744073709551615\x7d]" =
      some (.array [.int (-7), .object [("a", .int 18446744073709551615)]]) := by cbv
  ⟨h, parse_of_ofJson? h⟩

/-- An integer above the signed ones is an integer in JSON and a binary number in a literal. -/
theorem parse_ne_ofJson? : ¬ ∀ s v, Value.ofJson? s = some v → parse s = .ok v := by
  intro same
  have strict : Value.ofJson? "18446744073709551615" = some (.int 18446744073709551615) := by cbv
  have typed : ∃ x, parse "18446744073709551615" = .ok (.number (.float x)) := ⟨_, by rfl⟩
  obtain ⟨x, hx⟩ := typed
  rw [same _ _ strict] at hx
  cases hx

end CommandContract.Literal
