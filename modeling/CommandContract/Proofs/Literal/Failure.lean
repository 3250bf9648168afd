import CommandContract.Proofs.Literal.Reading
import CommandContract.Proofs.Text.Bytes

set_option autoImplicit false

/-!
# Where a text fails to be a literal

Every reader leaves an end of its input, so every offset is the length of a beginning of the text:
it lies inside of the text and between two characters. A missing separator is said without a reader:
in the innermost list that is open an element is complete, and behind it and the blanks that follow
stands neither a comma nor the end of the list. The reader reports exactly these texts, at the place
behind the blanks, except at the end of the text, where it reports one character too early:
`parse_located`.
-/
namespace CommandContract.Literal

open Text (byteLength byteLength_append)

variable {cs ds rest : List Char} {close : Char} {v : Value} {fuel : Nat}

/-! ## What a reader leaves -/

/-- What is left of the input is an end of it, behind what was read and where reading stopped. A
fault is of some kind. -/
def Leaves {α : Type} (kind : Fault → Prop) (cs : List Char) :
    Except Stop (α × List Char) → Prop
  | .ok (_, rest) => rest <:+ cs
  | .error stop => stop.rest <:+ cs ∧ kind stop.fault

/-- The end of the list in which a separator is missing. -/
def Fault.close? : Fault → Option Char
  | .expectedSeparator close => some close
  | _ => none

/-- No missing separator: the fault is one of a key, a string, a number or a word. -/
def Fault.Lexical (f : Fault) : Prop := f.close? = none

namespace Leaves

variable {α β : Type} {kind : Fault → Prop} {read : Except Stop (α × List Char)}

theorem of_suffix (h : Leaves kind ds read) (inside : ds <:+ cs) : Leaves kind cs read :=
  match read, h with
  | .ok _, h => h.trans inside
  | .error _, h => ⟨h.1.trans inside, h.2⟩

theorem any (h : Leaves kind cs read) : Leaves (fun _ => True) cs read :=
  match read, h with
  | .ok _, h => h
  | .error _, h => ⟨h.1, trivial⟩

/-- A reader goes on where the one before it left off. -/
theorem bind {next : α × List Char → Except Stop (β × List Char)} (h : Leaves kind cs read)
    (goesOn : ∀ a rest, Leaves kind rest (next (a, rest))) : Leaves kind cs (read >>= next) :=
  match read, h with
  | .ok (a, rest), h => (goesOn a rest).of_suffix h
  | .error _, h => h

end Leaves

theorem suffix_skipBlank (cs : List Char) : skipBlank cs <:+ cs := List.dropWhile_suffix _

theorem suffix_span (ofClass : Char → Bool) (cs : List Char) : (cs.span ofClass).2 <:+ cs := by
  rw [List.span_eq_takeWhile_dropWhile]
  exact List.dropWhile_suffix _

theorem leaves_readUnit (n unit : Nat) (cs : List Char) :
    Leaves Fault.Lexical cs (readUnit n unit cs) := by
  induction n generalizing unit cs with
  | zero => exact List.suffix_refl cs
  | succ n ih =>
    cases cs with
    | nil => exact ⟨List.suffix_refl [], rfl⟩
    | cons c cs =>
      rw [readUnit]
      split
      · exact (ih _ cs).of_suffix (List.suffix_cons c cs)
      · exact ⟨List.suffix_cons c cs, rfl⟩

theorem leaves_readQuoted (quote : Char) (fuel : Nat) (cs : List Char) :
    Leaves Fault.Lexical cs (readQuoted quote fuel cs) := by
  induction fuel generalizing cs with
  | zero => exact ⟨List.suffix_refl cs, rfl⟩
  | succ fuel ih =>
    cases cs with
    | nil => exact ⟨List.suffix_refl [], rfl⟩
    | cons c cs =>
      rw [readQuoted.eq_def]
      dsimp only
      split
      · exact List.suffix_cons c cs
      split
      · split
        · exact ⟨List.suffix_cons c [], rfl⟩
        · rename_i cs
          refine .of_suffix ?_ ((List.suffix_cons _ cs).trans (List.suffix_cons _ _))
          exact (leaves_readUnit 4 0 cs).bind fun l rest => (ih rest).bind fun _ => List.suffix_refl
        · rename_i l cs _
          refine .of_suffix ?_ ((List.suffix_cons l cs).trans (List.suffix_cons _ _))
          exact (ih cs).bind fun _ => List.suffix_refl
      · refine .of_suffix ?_ (List.suffix_cons c cs)
        exact (ih cs).bind fun _ => List.suffix_refl

theorem leaves_readString (quote : Char) (cs : List Char) :
    Leaves Fault.Lexical cs (readString quote cs) :=
  (leaves_readQuoted quote _ cs).bind fun _ => List.suffix_refl

theorem leaves_readNumber (cs : List Char) : Leaves Fault.Lexical cs (readNumber cs) := by
  rw [readNumber]
  dsimp only
  split
  · exact suffix_span isNumberChar cs
  · exact ⟨List.suffix_refl cs, rfl⟩

theorem leaves_readWord (cs : List Char) : Leaves Fault.Lexical cs (readWord cs) := by
  rw [readWord]
  dsimp only
  split
  · exact suffix_span isWordChar cs
  · exact ⟨suffix_span isWordChar cs, rfl⟩

theorem leaves_readKey (cs : List Char) : Leaves Fault.Lexical cs (readKey cs) := by
  cases cs with
  | nil => exact ⟨List.suffix_refl [], rfl⟩
  | cons c cs =>
    rw [readKey]
    split
    · exact (leaves_readString c cs).of_suffix (List.suffix_cons c cs)
    split
    · exact suffix_span isWordChar (c :: cs)
    · exact ⟨List.suffix_refl _, rfl⟩

/-- The readers of values, items and members, whatever they stop with. -/
structure LeavesAt (fuel : Nat) : Prop where
  value : ∀ cs, Leaves (fun _ => True) cs (readValue fuel cs)
  items : ∀ cs, Leaves (fun _ => True) cs (readItems fuel cs)
  members : ∀ cs, Leaves (fun _ => True) cs (readMembers fuel cs)

theorem LeavesAt.value_succ (leaves : LeavesAt fuel) (cs : List Char) :
    Leaves (fun _ => True) cs (readValue (fuel + 1) cs) := by
  cases cs with
  | nil => exact ⟨List.suffix_refl [], trivial⟩
  | cons c cs =>
    have after := (suffix_skipBlank cs).trans (List.suffix_cons c cs)
    rw [readValue]
    split
    · exact ((leaves.members _).bind fun _ => List.suffix_refl).of_suffix after
    split
    · exact ((leaves.items _).bind fun _ => List.suffix_refl).of_suffix after
    split
    · refine .of_suffix ?_ (List.suffix_cons c cs)
      exact (leaves_readString c cs).any.bind fun _ => List.suffix_refl
    split
    · exact (leaves_readNumber _).any.bind fun _ => List.suffix_refl
    split
    · exact (leaves_readWord _).any
    · exact ⟨List.suffix_refl _, trivial⟩

theorem suffix_of_skipBlank {c : Char} (h : skipBlank cs = c :: ds) : ds <:+ cs :=
  (List.suffix_cons c ds).trans (h ▸ suffix_skipBlank cs)

theorem LeavesAt.items_succ (leaves : LeavesAt fuel) (cs : List Char) :
    Leaves (fun _ => True) cs (readItems (fuel + 1) cs) := by
  rw [readItems.eq_def]
  dsimp only
  split
  · exact List.suffix_cons _ _
  · refine (leaves.value cs).bind fun v ds => ?_
    dsimp only
    split
    · rename_i es comma
      refine .of_suffix ?_ (suffix_of_skipBlank comma)
      exact ((leaves.items _).bind fun _ => List.suffix_refl).of_suffix (suffix_skipBlank es)
    · rename_i close
      exact suffix_of_skipBlank close
    · exact ⟨suffix_skipBlank ds, trivial⟩

theorem LeavesAt.members_succ (leaves : LeavesAt fuel) (cs : List Char) :
    Leaves (fun _ => True) cs (readMembers (fuel + 1) cs) := by
  rw [readMembers.eq_def]
  dsimp only
  split
  · exact List.suffix_cons _ _
  · refine (leaves_readKey cs).any.bind fun name ds => ?_
    dsimp only
    split
    · rename_i es colon
      refine .of_suffix ?_ ((suffix_skipBlank es).trans (suffix_of_skipBlank colon))
      refine (leaves.value _).bind fun v fs => ?_
      dsimp only
      split
      · rename_i gs comma
        refine .of_suffix ?_ (suffix_of_skipBlank comma)
        exact ((leaves.members _).bind fun _ => List.suffix_refl).of_suffix (suffix_skipBlank gs)
      · rename_i close
        exact suffix_of_skipBlank close
      · exact ⟨suffix_skipBlank fs, trivial⟩
    · exact ⟨suffix_skipBlank ds, trivial⟩

theorem leavesAt (fuel : Nat) : LeavesAt fuel := by
  induction fuel with
  | zero =>
    exact ⟨fun cs => ⟨List.suffix_refl cs, trivial⟩, fun cs => ⟨List.suffix_refl cs, trivial⟩,
      fun cs => ⟨List.suffix_refl cs, trivial⟩⟩
  | succ fuel ih => exact ⟨ih.value_succ, ih.items_succ, ih.members_succ⟩

/-- Where a whole text is not read as a value, reading stopped inside of it. -/
theorem suffix_of_readWhole {stop : Stop} (h : readWhole cs = .error stop) : stop.rest <:+ cs := by
  have leaves := ((leavesAt (steps cs)).value (skipBlank cs)).of_suffix (suffix_skipBlank cs)
  rw [readWhole] at h
  rcases Except.bind_eq_error_iff.mp h with read | ⟨⟨v, rest⟩, read, h⟩
  · rw [read] at leaves
    exact leaves.1
  · rw [read] at leaves
    dsimp only at h
    split at h
    · cases h
    · cases h
      exact (suffix_skipBlank rest).trans leaves

/-! ## Missing separators -/

/-- Behind an element and the blanks that follow it stands neither a comma nor the end of the
list. -/
structure Gap (cs : List Char) (close : Char) (rest : List Char) : Prop where
  blanks : Blanks cs rest
  solid : Solid rest
  comma : rest.head? ≠ some ','
  close : rest.head? ≠ some close

mutual

/-- In the value that begins here, a separator is missing in front of what is left, in a list of
which the end would be `close`. -/
inductive Lacks : List Char → Char → List Char → Prop
  | array {cs ds rest : List Char} {close : Char} (blanks : Blanks cs ds)
      (h : LacksItems ds close rest) : Lacks ('[' :: cs) close rest
  | object {cs ds rest : List Char} {close : Char} (blanks : Blanks cs ds)
      (h : LacksMembers ds close rest) : Lacks ('\x7b' :: cs) close rest

/-- The same for the items from here on: behind the first of them, inside of it, or later. -/
inductive LacksItems : List Char → Char → List Char → Prop
  | here {cs ds rest : List Char} {v : Value} (h : Spells cs v ds) (gap : Gap ds ']' rest) :
      LacksItems cs ']' rest
  | inside {cs rest : List Char} {close : Char} (h : Lacks cs close rest) :
      LacksItems cs close rest
  | later {cs ds es fs rest : List Char} {close : Char} {v : Value} (h : Spells cs v ds)
      (comma : Blanks ds (',' :: es)) (blanks : Blanks es fs) (others : LacksItems fs close rest) :
      LacksItems cs close rest

/-- The same for the members from here on. -/
inductive LacksMembers : List Char → Char → List Char → Prop
  | here {cs ds rest : List Char} {m : String × Value} (h : SpellsMember cs m ds)
      (gap : Gap ds '\x7d' rest) : LacksMembers cs '\x7d' rest
  | inside {cs ds es fs rest : List Char} {close : Char} {name : String} (key : Key cs name ds)
      (colon : Blanks ds (':' :: es)) (blanks : Blanks es fs) (h : Lacks fs close rest) :
      LacksMembers cs close rest
  | later {cs ds es fs rest : List Char} {close : Char} {m : String × Value}
      (h : SpellsMember cs m ds) (comma : Blanks ds (',' :: es)) (blanks : Blanks es fs)
      (others : LacksMembers fs close rest) : LacksMembers cs close rest

end

abbrev missing (close : Char) (rest : List Char) : Stop := ⟨.expectedSeparator close, rest⟩

theorem gap_of_skipBlank (comma : ∀ es, skipBlank cs = ',' :: es → False)
    (other : ∀ es, skipBlank cs = close :: es → False) : Gap cs close (skipBlank cs) where
  blanks := blanks_skipBlank cs
  solid := solid_skipBlank cs
  comma he := (List.head?_eq_some_iff.mp he).elim comma
  close he := (List.head?_eq_some_iff.mp he).elim other

theorem Gap.skipBlank_eq (gap : Gap cs close rest) : skipBlank cs = rest :=
  skipBlank_of_blanks gap.blanks gap.solid

theorem not_missing {α : Type} {read : Except Stop (α × List Char)}
    (h : Leaves Fault.Lexical cs read) : read ≠ .error (missing close rest) := by
  rintro rfl
  cases h.2

theorem readItems_missing_iff (hc : cs.head? ≠ some ']') :
    readItems (fuel + 1) cs = .error (missing close rest) ↔
      readValue fuel cs = .error (missing close rest) ∨
        ∃ v ds, readValue fuel cs = .ok (v, ds) ∧
          ((∃ es, skipBlank ds = ',' :: es ∧
            readItems fuel (skipBlank es) = .error (missing close rest)) ∨
          (close = ']' ∧ Gap ds ']' rest)) := by
  have goesOn : ∀ es, cs = ']' :: es → False := fun es he => hc (he ▸ rfl)
  rw [readItems.eq_3 _ _ goesOn, Except.bind_eq_error_iff]
  refine or_congr Iff.rfl ⟨?_, ?_⟩
  · rintro ⟨⟨v, ds⟩, hv, h⟩
    refine ⟨v, ds, hv, ?_⟩
    dsimp only at h
    split at h
    · rename_i es comma
      rcases Except.bind_eq_error_iff.mp h with h | ⟨_, _, ⟨⟩⟩
      exact .inl ⟨es, comma, h⟩
    · cases h
    · rename_i noComma noClose
      cases h
      exact .inr ⟨rfl, gap_of_skipBlank noComma noClose⟩
  · rintro ⟨v, ds, hv, ⟨es, comma, h⟩ | ⟨rfl, gap⟩⟩
    · refine ⟨(v, ds), hv, ?_⟩
      simp only [comma, h, bind, Except.bind]
    · refine ⟨(v, ds), hv, ?_⟩
      dsimp only
      rw [gap.skipBlank_eq]
      -- of the three ways to go on the gap leaves the last
      split
      · exact absurd rfl gap.comma
      · exact absurd rfl gap.close
      · rfl

theorem readMembers_missing_iff (hc : cs.head? ≠ some '\x7d') :
    readMembers (fuel + 1) cs = .error (missing close rest) ↔
      ∃ name ds es, readKey cs = .ok (name, ds) ∧ skipBlank ds = ':' :: es ∧
        (readValue fuel (skipBlank es) = .error (missing close rest) ∨
          ∃ v fs, readValue fuel (skipBlank es) = .ok (v, fs) ∧
            ((∃ gs, skipBlank fs = ',' :: gs ∧
              readMembers fuel (skipBlank gs) = .error (missing close rest)) ∨
            (close = '\x7d' ∧ Gap fs '\x7d' rest))) := by
  have goesOn : ∀ es, cs = '\x7d' :: es → False := fun es he => hc (he ▸ rfl)
  rw [readMembers.eq_3 _ _ goesOn, Except.bind_eq_error_iff]
  constructor
  · rintro (h | ⟨⟨name, ds⟩, hk, h⟩)
    · exact absurd h (not_missing (leaves_readKey cs))
    dsimp only at h
    split at h
    · rename_i es colon
      refine ⟨name, ds, es, hk, colon, ?_⟩
      rcases Except.bind_eq_error_iff.mp h with h | ⟨⟨v, fs⟩, hv, h⟩
      · exact .inl h
      refine .inr ⟨v, fs, hv, ?_⟩
      dsimp only at h
      split at h
      · rename_i gs comma
        rcases Except.bind_eq_error_iff.mp h with h | ⟨_, _, ⟨⟩⟩
        exact .inl ⟨gs, comma, h⟩
      · cases h
      · rename_i noComma noClose
        cases h
        exact .inr ⟨rfl, gap_of_skipBlank noComma noClose⟩
    · cases h
  · rintro ⟨name, ds, es, hk, colon, h⟩
    refine .inr ⟨(name, ds), hk, ?_⟩
    simp only [colon, Except.bind_eq_error_iff]
    rcases h with h | ⟨v, fs, hv, ⟨gs, comma, h⟩ | ⟨rfl, gap⟩⟩
    · exact .inl h
    · refine .inr ⟨(v, fs), hv, ?_⟩
      simp only [comma, h, bind, Except.bind]
    · refine .inr ⟨(v, fs), hv, ?_⟩
      dsimp only
      rw [gap.skipBlank_eq]
      split
      · exact absurd rfl gap.comma
      · exact absurd rfl gap.close
      · rfl

theorem wrapped_eq_error_iff {α β : Type} {read : Except Stop (α × List Char)} {f : α → β}
    {stop : Stop} :
    (do let (a, rest) ← read
        .ok (f a, rest)) = (.error stop : Except Stop (β × List Char)) ↔ read = .error stop := by
  rw [Except.bind_eq_error_iff]
  exact or_iff_left nofun

theorem readValue_array_error_iff {stop : Stop} :
    readValue (fuel + 1) ('[' :: cs) = .error stop ↔
      readItems fuel (skipBlank cs) = .error stop := by
  rw [← wrapped_eq_error_iff (f := Value.array)]
  simp [readValue]

theorem readValue_object_error_iff {stop : Stop} :
    readValue (fuel + 1) ('\x7b' :: cs) = .error stop ↔
      readMembers fuel (skipBlank cs) = .error stop := by
  rw [← wrapped_eq_error_iff (f := fun pairs => Value.object (Members.ofPairs pairs))]
  simp [readValue]

/-- Of all values only arrays and objects lack a separator. -/
theorem readValue_missing_iff :
    readValue (fuel + 1) cs = .error (missing close rest) ↔
      (∃ ds, cs = '[' :: ds ∧ readItems fuel (skipBlank ds) = .error (missing close rest)) ∨
      ∃ ds, cs = '\x7b' :: ds ∧
        readMembers fuel (skipBlank ds) = .error (missing close rest) := by
  constructor
  · intro h
    cases cs with
    | nil => cases h
    | cons c cs =>
      by_cases bracket : c = '['
      · subst bracket
        exact .inl ⟨cs, rfl, readValue_array_error_iff.mp h⟩
      by_cases brace : c = '\x7b'
      · subst brace
        exact .inr ⟨cs, rfl, readValue_object_error_iff.mp h⟩
      simp only [readValue, bracket, brace, if_false] at h
      split at h
      · exact absurd (wrapped_eq_error_iff.mp h) (not_missing (leaves_readString c cs))
      split at h
      · exact absurd (wrapped_eq_error_iff.mp h) (not_missing (leaves_readNumber _))
      split at h
      · exact absurd h (not_missing (leaves_readWord _))
      · cases h
  · rintro (⟨ds, rfl, h⟩ | ⟨ds, rfl, h⟩)
    · exact readValue_array_error_iff.mpr h
    · exact readValue_object_error_iff.mpr h

theorem Lacks.begins (h : Lacks cs close rest) :
    ∃ c ds, cs = c :: ds ∧ Text.isBlank c = false ∧ c ≠ ']' := by
  cases h with
  | array => exact ⟨_, _, rfl, by decide⟩
  | object => exact ⟨_, _, rfl, by decide⟩

theorem Lacks.solid (h : Lacks cs close rest) : Solid cs := by
  obtain ⟨c, ds, rfl, hc, _⟩ := h.begins
  exact solid_cons hc ds

theorem LacksItems.begins (h : LacksItems cs close rest) :
    ∃ c ds, cs = c :: ds ∧ Text.isBlank c = false ∧ c ≠ ']' := by
  cases h with
  | here h => exact h.begins
  | inside h => exact h.begins
  | later h => exact h.begins

theorem LacksItems.solid (h : LacksItems cs close rest) : Solid cs := by
  obtain ⟨c, ds, rfl, hc, _⟩ := h.begins
  exact solid_cons hc ds

theorem LacksItems.head?_ne (h : LacksItems cs close rest) : cs.head? ≠ some ']' := by
  obtain ⟨c, ds, rfl, _, hc⟩ := h.begins
  exact fun he => hc (Option.some.inj he)

theorem SpellsMember.key {m : String × Value} (h : SpellsMember cs m rest) :
    ∃ name ds, Key cs name ds := by
  cases h with
  | mk key => exact ⟨_, _, key⟩

theorem LacksMembers.key (h : LacksMembers cs close rest) : ∃ name ds, Key cs name ds := by
  cases h with
  | here h => exact h.key
  | inside key => exact ⟨_, _, key⟩
  | later h => exact h.key

theorem LacksMembers.solid (h : LacksMembers cs close rest) : Solid cs := by
  obtain ⟨_, _, h⟩ := h.key
  exact h.solid

theorem LacksMembers.head?_ne (h : LacksMembers cs close rest) : cs.head? ≠ some '\x7d' := by
  obtain ⟨_, _, h⟩ := h.key
  exact h.head?_ne

/-- With this many steps the reader stops at a missing separator of a text that is short enough
exactly where one is missing. -/
structure MissesAt (fuel : Nat) : Prop where
  value : ∀ {cs close rest}, 2 * cs.length ≤ fuel →
    (readValue fuel cs = .error (missing close rest) ↔ Lacks cs close rest)
  items : ∀ {cs close rest}, 2 * cs.length + 1 ≤ fuel →
    (readItems fuel cs = .error (missing close rest) ↔ LacksItems cs close rest)
  members : ∀ {cs close rest}, 2 * cs.length + 1 ≤ fuel →
    (readMembers fuel cs = .error (missing close rest) ↔ LacksMembers cs close rest)

theorem readValue_eq_ok_iff (enough : 2 * cs.length ≤ fuel) :
    readValue fuel cs = .ok (v, rest) ↔ Spells cs v rest :=
  ⟨(soundAt fuel).value, fun h => (completeAt fuel).value h enough⟩

theorem MissesAt.value_succ (misses : MissesAt fuel) (enough : 2 * cs.length ≤ fuel + 1) :
    readValue (fuel + 1) cs = .error (missing close rest) ↔ Lacks cs close rest := by
  rw [readValue_missing_iff]
  constructor
  · rintro (⟨ds, rfl, h⟩ | ⟨ds, rfl, h⟩)
    all_goals
      have := (blanks_skipBlank ds).length_le
      rw [List.length_cons] at enough
    · exact .array (blanks_skipBlank ds) ((misses.items (by omega)).mp h)
    · exact .object (blanks_skipBlank ds) ((misses.members (by omega)).mp h)
  · intro h
    cases h with
    | array blanks h =>
      have := blanks.length_le
      rw [List.length_cons] at enough
      refine .inl ⟨_, rfl, ?_⟩
      rw [skipBlank_of_blanks blanks h.solid]
      exact (misses.items (by omega)).mpr h
    | object blanks h =>
      have := blanks.length_le
      rw [List.length_cons] at enough
      refine .inr ⟨_, rfl, ?_⟩
      rw [skipBlank_of_blanks blanks h.solid]
      exact (misses.members (by omega)).mpr h

theorem MissesAt.items_succ (misses : MissesAt fuel) (enough : 2 * cs.length + 1 ≤ fuel + 1) :
    readItems (fuel + 1) cs = .error (missing close rest) ↔ LacksItems cs close rest := by
  by_cases hc : cs.head? = some ']'
  · obtain ⟨ds, rfl⟩ := List.head?_eq_some_iff.mp hc
    rw [readItems_close (Nat.succ_pos fuel)]
    exact ⟨nofun, fun h => absurd hc h.head?_ne⟩
  rw [readItems_missing_iff hc, misses.value (by omega)]
  constructor
  · rintro (h | ⟨v, ds, hv, ⟨es, comma, h⟩ | ⟨rfl, gap⟩⟩)
    · exact .inside h
    · have item := (soundAt fuel).value hv
      have := item.length_lt
      have := (blanks_of_eq comma).length_lt
      have := (blanks_skipBlank es).length_le
      exact .later item (blanks_of_eq comma) (blanks_skipBlank es) ((misses.items (by omega)).mp h)
    · exact .here ((soundAt fuel).value hv) gap
  · intro h
    cases h with
    | here h gap => exact .inr ⟨_, _, (readValue_eq_ok_iff (by omega)).mpr h, .inr ⟨rfl, gap⟩⟩
    | inside h => exact .inl h
    | later h comma blanks others =>
      have := h.length_lt
      have := comma.length_lt
      have := blanks.length_le
      have separator := skipBlank_of_separator comma (by decide)
      refine .inr ⟨_, _, (readValue_eq_ok_iff (by omega)).mpr h, .inl ⟨_, separator, ?_⟩⟩
      rw [skipBlank_of_blanks blanks others.solid]
      exact (misses.items (by omega)).mpr others

theorem spellsMember_iff {name : String} (enough : 2 * cs.length ≤ fuel) :
    SpellsMember cs (name, v) rest ↔ ∃ ds es, readKey cs = .ok (name, ds) ∧
      skipBlank ds = ':' :: es ∧ readValue fuel (skipBlank es) = .ok (v, rest) := by
  constructor
  · rintro ⟨key, colon, blanks, h⟩
    have := key.length_lt
    have := colon.length_lt
    have := blanks.length_le
    refine ⟨_, _, key_iff.mp key, skipBlank_of_separator colon (by decide), ?_⟩
    rw [skipBlank_of_blanks blanks h.solid]
    exact (readValue_eq_ok_iff (by omega)).mpr h
  · rintro ⟨ds, es, hk, colon, hv⟩
    exact .mk (key_iff.mpr hk) (blanks_of_eq colon) (blanks_skipBlank es) ((soundAt fuel).value hv)

theorem MissesAt.members_succ (misses : MissesAt fuel) (enough : 2 * cs.length + 1 ≤ fuel + 1) :
    readMembers (fuel + 1) cs = .error (missing close rest) ↔ LacksMembers cs close rest := by
  by_cases hc : cs.head? = some '\x7d'
  · obtain ⟨ds, rfl⟩ := List.head?_eq_some_iff.mp hc
    rw [readMembers_close (Nat.succ_pos fuel)]
    exact ⟨nofun, fun h => absurd hc h.head?_ne⟩
  rw [readMembers_missing_iff hc]
  have short : 2 * cs.length ≤ fuel := by omega
  constructor
  · rintro ⟨name, ds, es, hk, colon, h | ⟨v, fs, hv, h⟩⟩
    · have key := key_iff.mpr hk
      have := key.length_lt
      have := (blanks_of_eq colon).length_lt
      have := (blanks_skipBlank es).length_le
      exact .inside key (blanks_of_eq colon) (blanks_skipBlank es) ((misses.value (by omega)).mp h)
    have member := (spellsMember_iff short).mpr ⟨ds, es, hk, colon, hv⟩
    rcases h with ⟨gs, comma, h⟩ | ⟨rfl, gap⟩
    · have := member.length_lt
      have := (blanks_of_eq comma).length_lt
      have := (blanks_skipBlank gs).length_le
      exact .later member (blanks_of_eq comma) (blanks_skipBlank gs)
        ((misses.members (by omega)).mp h)
    · exact .here member gap
  · intro h
    cases h with
    | @here _ fs _ m h gap =>
      obtain ⟨ds, es, hk, colon, hv⟩ := (spellsMember_iff short).mp h
      exact ⟨m.1, ds, es, hk, colon, .inr ⟨m.2, fs, hv, .inr ⟨rfl, gap⟩⟩⟩
    | inside key colon blanks h =>
      have := key.length_lt
      have := colon.length_lt
      have := blanks.length_le
      refine ⟨_, _, _, key_iff.mp key, skipBlank_of_separator colon (by decide), .inl ?_⟩
      rw [skipBlank_of_blanks blanks h.solid]
      exact (misses.value (by omega)).mpr h
    | @later _ fs gs _ _ _ m h comma blanks others =>
      have := h.length_lt
      have := comma.length_lt
      have := blanks.length_le
      obtain ⟨ds, es, hk, colon, hv⟩ := (spellsMember_iff short).mp h
      have separator := skipBlank_of_separator comma (by decide)
      refine ⟨m.1, ds, es, hk, colon, .inr ⟨m.2, fs, hv, .inl ⟨gs, separator, ?_⟩⟩⟩
      rw [skipBlank_of_blanks blanks others.solid]
      exact (misses.members (by omega)).mpr others

theorem missesAt (fuel : Nat) : MissesAt fuel := by
  induction fuel with
  | zero =>
    refine ⟨fun enough => ⟨nofun, fun h => ?_⟩, fun enough => ?_, fun enough => ?_⟩
    · obtain ⟨_, _, rfl, _⟩ := h.begins
      rw [List.length_cons] at enough
      omega
    · omega
    · omega
  | succ fuel ih => exact ⟨ih.value_succ, ih.items_succ, ih.members_succ⟩

/-! ## Whole texts -/

/-- Between two parts of a text a separator is missing: the first part ends with an element of the
innermost open list and the blanks behind it, and the second part does not go on with that list. -/
structure MissingBetween (cs : List Char) (close : Char) (before rest : List Char) : Prop where
  split : cs = before ++ rest
  lacks : ∃ ds, Blanks cs ds ∧ Lacks ds close rest

theorem readWhole_missing_iff :
    readWhole cs = .error (missing close rest) ↔ ∃ ds, Blanks cs ds ∧ Lacks ds close rest := by
  have value : readWhole cs = .error (missing close rest) ↔
      readValue (steps cs) (skipBlank cs) = .error (missing close rest) := by
    rw [readWhole, Except.bind_eq_error_iff]
    refine or_iff_left ?_
    rintro ⟨⟨v, ds⟩, _, h⟩
    dsimp only at h
    split at h <;> cases h
  have := (blanks_skipBlank cs).length_le
  rw [value, (missesAt _).value (by rw [steps]; omega)]
  constructor
  · exact fun h => ⟨_, blanks_skipBlank cs, h⟩
  · rintro ⟨ds, blanks, h⟩
    rwa [skipBlank_of_blanks blanks h.solid]

theorem parse_eq_error_iff {text : String} {e : Error} :
    parse text = .error e ↔ ∃ stop, readWhole text.toList = .error stop ∧
      e = ⟨stop.fault, stop.offset text.toList⟩ := by
  rw [parse]
  split
  · rename_i read
    simp [read]
  · rename_i read
    simp [read, eq_comm]

/-- A stop is reported where it is, apart from a separator that is missing at the end. -/
theorem Stop.offset_append {stop : Stop} {before : List Char}
    (placed : ∀ close, stop ≠ missing close []) :
    stop.offset (before ++ stop.rest) = byteLength before := by
  unfold Stop.offset
  split
  · -- the separator that is missing at the end
    rename_i close fault rest
    obtain ⟨_, _⟩ := stop
    cases fault
    cases rest
    exact absurd rfl (placed close)
  · rw [byteLength_append, Nat.add_sub_cancel]

/-- Wherever reading stops, the offset is the length of a beginning of the text. -/
theorem Stop.exists_prefix {stop : Stop} (inside : stop.rest <:+ cs) :
    ∃ before, before <+: cs ∧ stop.offset cs = byteLength before := by
  by_cases ended : ∃ close, stop = missing close []
  · obtain ⟨close, rfl⟩ := ended
    exact ⟨cs.dropLast, List.dropLast_prefix cs, rfl⟩
  · obtain ⟨before, rfl⟩ := inside
    have placed : ∀ close, stop ≠ missing close [] := fun close he => ended ⟨close, he⟩
    exact ⟨before, List.prefix_append before stop.rest, Stop.offset_append placed⟩

/-- The offset of a missing separator is its place, and the last character in front of it where the
text ends there. -/
theorem MissingBetween.offset_iff {before : List Char} {offset : Nat}
    (h : MissingBetween cs close before rest) :
    offset = (missing close rest).offset cs ↔
      (offset = byteLength before ↔ rest ≠ []) ∧
        (rest = [] → offset = byteLength before.dropLast) := by
  obtain ⟨rfl, ds, blanks, lacks⟩ := h
  by_cases ended : rest = []
  · -- the whole text stands in front of its end, so a character less is another place
    subst ended
    obtain ⟨_, _, rfl, _⟩ := lacks.begins
    rw [List.append_nil] at blanks ⊢
    have nonempty : before ≠ [] := List.length_pos_iff.mp (Nat.zero_lt_of_lt blanks.length_lt)
    have shorter := Text.byteLength_dropLast_lt nonempty
    have here : (missing close []).offset before = byteLength before.dropLast := rfl
    rw [here]
    constructor
    · rintro rfl
      exact ⟨⟨fun he => absurd he (Nat.ne_of_lt shorter), fun h => absurd rfl h⟩, fun _ => rfl⟩
    · exact fun h => h.2 rfl
  · have placed : ∀ c, missing close rest ≠ missing c [] :=
      fun _ he => ended (congrArg Stop.rest he)
    have here : (missing close rest).offset (before ++ rest) = byteLength before :=
      Stop.offset_append placed
    rw [here]
    exact ⟨fun he => ⟨⟨fun _ => ended, fun _ => he⟩, fun he => absurd he ended⟩,
      fun h => h.1.mpr ended⟩

/-- Every offset lies in the text, between two characters. A missing separator is reported in just
the texts that have one, at the first character behind the last complete element that is no blank;
where the text ends in front of such a character, not at its end but at its last character. -/
theorem parse_located (text : String) :
    (∀ e, parse text = .error e →
      e.offset ≤ text.utf8ByteSize ∧ String.Pos.Raw.IsValid text ⟨e.offset⟩) ∧
    ∀ close offset, parse text = .error ⟨.expectedSeparator close, offset⟩ ↔
      ∃ before rest, MissingBetween text.toList close before rest ∧
        (offset = (String.ofList before).utf8ByteSize ↔ rest ≠ []) ∧
        (rest = [] → offset = (String.ofList before.dropLast).utf8ByteSize) := by
  refine ⟨fun e h => ?_, fun close offset => ⟨fun h => ?_, ?_⟩⟩
  · obtain ⟨stop, read, rfl⟩ := parse_eq_error_iff.mp h
    obtain ⟨before, inside, place⟩ := Stop.exists_prefix (suffix_of_readWhole read)
    have valid := Text.isValid_of_prefix inside
    rw [← place] at valid
    exact ⟨valid.le_utf8ByteSize, valid⟩
  · obtain ⟨⟨fault, rest⟩, read, he⟩ := parse_eq_error_iff.mp h
    obtain ⟨rfl, place⟩ := Error.mk.inj he
    obtain ⟨before, split⟩ := suffix_of_readWhole read
    have between : MissingBetween text.toList close before rest :=
      ⟨split.symm, readWhole_missing_iff.mp read⟩
    simp only [← Text.byteLength_eq]
    exact ⟨before, rest, between, between.offset_iff.mp place⟩
  · rintro ⟨before, rest, between, place⟩
    simp only [← Text.byteLength_eq] at place
    refine parse_eq_error_iff.mpr ⟨missing close rest, readWhole_missing_iff.mpr between.lacks, ?_⟩
    rw [between.offset_iff.mpr place]

/-- In a member of an item, behind characters of several bytes: in front of a word, and at the end
of the text. -/
theorem parse_located_nested :
    parse "[\x7b'ü': 'é'\u3000true\x7d]" = .error ⟨.expectedSeparator '\x7d', 15⟩ ∧
      (15 ≤ "[\x7b'ü': 'é'\u3000true\x7d]".utf8ByteSize ∧
        String.Pos.Raw.IsValid "[\x7b'ü': 'é'\u3000true\x7d]" ⟨15⟩) ∧
      parse "[\x7b'ü': 'é'\u3000" = .error ⟨.expectedSeparator '\x7d', 12⟩ ∧
      ∃ before rest, MissingBetween "[\x7b'ü': 'é'\u3000".toList '\x7d' before rest ∧
        (12 = (String.ofList before).utf8ByteSize ↔ rest ≠ []) ∧
        (rest = [] → 12 = (String.ofList before.dropLast).utf8ByteSize) := by
  have inner : parse "[\x7b'ü': 'é'\u3000true\x7d]" =
      .error ⟨.expectedSeparator '\x7d', 15⟩ := by cbv
  have ended : parse "[\x7b'ü': 'é'\u3000" = .error ⟨.expectedSeparator '\x7d', 12⟩ := by cbv
  exact ⟨inner, (parse_located _).1 _ inner, ended, ((parse_located _).2 _ _).mp ended⟩

/-- A text that ends behind an item is not reported at its end. -/
theorem parse_ended_early : ¬ ∀ (text : String) (close : Char) (before rest : List Char)
    (offset : Nat), MissingBetween text.toList close before rest →
      parse text = .error ⟨.expectedSeparator close, offset⟩ →
      offset = (String.ofList before).utf8ByteSize := by
  intro placed
  have one : Spells ['1'] (.number (.int 1)) [] :=
    .number (.mk rfl (Text.run_iff.mpr rfl) rfl)
  have gap : Gap [] ']' [] := ⟨.stay [], nofun, nofun, nofun⟩
  have between : MissingBetween "[1".toList ']' ['[', '1'] [] :=
    ⟨rfl, _, .stay _, .array (.stay _) (.here one gap)⟩
  have place := placed "[1" ']' _ _ 1 between rfl
  exact absurd place (by decide)

end CommandContract.Literal
