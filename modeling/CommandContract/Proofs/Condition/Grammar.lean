import CommandContract.Condition.Expression
import CommandContract.Proofs.Except

set_option autoImplicit false

/-!
# The grammar of conditions

Which lists of tokens make a condition, said without a reader: `||` joins what `&&` joins, `&&`
joins what `!` may stand before, and `!` stands before itself, a parenthesised condition, a
comparison or one operand. The reader accepts exactly what the grammar derives, as the expression
that it derives: `ofTokens_eq_ok_iff`.
-/
namespace CommandContract.Condition

variable {ts rest : List Token} {e : Expression}

/-! ## Derivations -/

/-- How tightly the operators of a part of a condition bind. -/
inductive Level where
  | either
  | both
  | unary

def Operand.token : Operand → Token
  | literal v => .literal v
  | path p => .path p

/-- The tokens of a condition, or of a part of it that binds at least as tightly as a level. -/
inductive Derives : Level → List Token → Expression → Prop
  | joined {ts : List Token} {e : Expression} (h : Derives .both ts e) : Derives .either ts e
  | either {s t : List Token} {a b : Expression} (h : Derives .either s a)
      (other : Derives .both t b) : Derives .either (s ++ .either :: t) (.either a b)
  | single {ts : List Token} {e : Expression} (h : Derives .unary ts e) : Derives .both ts e
  | both {s t : List Token} {a b : Expression} (h : Derives .both s a)
      (other : Derives .unary t b) : Derives .both (s ++ .both :: t) (.both a b)
  | negation {ts : List Token} {e : Expression} (h : Derives .unary ts e) :
      Derives .unary (.negation :: ts) (.negation e)
  | parens {ts : List Token} {e : Expression} (h : Derives .either ts e) :
      Derives .unary (.opening :: ts ++ [.closing]) e
  | compare (op : Comparison) (a b : Operand) :
      Derives .unary [a.token, .comparison op, b.token] (.compare op a b)
  | truth (a : Operand) : Derives .unary [a.token] (.truth a)

/-! ## Soundness -/

theorem readOperand_eq_ok_iff {a : Operand} :
    readOperand ts = .ok (a, rest) ↔ ts = a.token :: rest := by
  constructor
  · intro h
    unfold readOperand at h
    split at h
    · cases h
    · cases h
      rfl
    · cases h
      rfl
    · cases h
  · rintro rfl
    cases a <;> rfl

theorem readComparison_sound (h : readComparison ts = .ok (e, rest)) :
    ∃ s, ts = s ++ rest ∧ Derives .unary s e := by
  obtain ⟨⟨a, behind⟩, ha, hb⟩ := Except.bind_eq_ok_iff.mp h
  obtain rfl := readOperand_eq_ok_iff.mp ha
  dsimp only at hb
  split at hb
  · rename_i op behind
    obtain ⟨⟨b, _⟩, hb, done⟩ := Except.bind_eq_ok_iff.mp hb
    cases readOperand_eq_ok_iff.mp hb
    cases done
    exact ⟨[a.token, .comparison op, b.token], rfl, .compare op a b⟩
  · cases hb
    exact ⟨[a.token], rfl, .truth a⟩

section Steps

variable {fuel : Nat} {a : Expression}

theorem moreEither_cons : moreEither (fuel + 1) a (.either :: ts) =
    readBoth fuel ts >>= fun (b, rest) => moreEither fuel (.either a b) rest := by
  rw [moreEither]

theorem moreBoth_cons : moreBoth (fuel + 1) a (.both :: ts) =
    readUnary fuel ts >>= fun (b, rest) => moreBoth fuel (.both a b) rest := by
  rw [moreBoth]

theorem moreEither_stop (h : ∀ us, ts ≠ .either :: us) : moreEither fuel a ts = .ok (a, ts) := by
  unfold moreEither
  split
  · exact absurd rfl (h _)
  · rfl

theorem moreBoth_stop (h : ∀ us, ts ≠ .both :: us) : moreBoth fuel a ts = .ok (a, ts) := by
  unfold moreBoth
  split
  · exact absurd rfl (h _)
  · rfl

end Steps

/-- What is read with an amount of fuel is derived by the grammar. -/
structure SoundAt (fuel : Nat) : Prop where
  either : ∀ {ts rest e}, readEither fuel ts = .ok (e, rest) →
    ∃ s, ts = s ++ rest ∧ Derives .either s e
  afterEither : ∀ {ts rest s a e}, Derives .either s a → moreEither fuel a ts = .ok (e, rest) →
    ∃ t, s ++ ts = t ++ rest ∧ Derives .either t e
  both : ∀ {ts rest e}, readBoth fuel ts = .ok (e, rest) → ∃ s, ts = s ++ rest ∧ Derives .both s e
  afterBoth : ∀ {ts rest s a e}, Derives .both s a → moreBoth fuel a ts = .ok (e, rest) →
    ∃ t, s ++ ts = t ++ rest ∧ Derives .both t e
  unary : ∀ {ts rest e}, readUnary fuel ts = .ok (e, rest) →
    ∃ s, ts = s ++ rest ∧ Derives .unary s e

section Sound

variable {fuel : Nat} {s : List Token} {a : Expression}

theorem SoundAt.either_succ (sound : SoundAt fuel) (h : readEither (fuel + 1) ts = .ok (e, rest)) :
    ∃ s, ts = s ++ rest ∧ Derives .either s e := by
  rw [readEither] at h
  obtain ⟨⟨a, behind⟩, ha, more⟩ := Except.bind_eq_ok_iff.mp h
  obtain ⟨s, split, derived⟩ := sound.both ha
  rw [split]
  exact sound.afterEither (.joined derived) more

theorem SoundAt.afterEither_succ (sound : SoundAt fuel) (derived : Derives .either s a)
    (h : moreEither (fuel + 1) a ts = .ok (e, rest)) :
    ∃ t, s ++ ts = t ++ rest ∧ Derives .either t e := by
  by_cases next : ∃ us, ts = .either :: us
  · obtain ⟨us, rfl⟩ := next
    rw [moreEither_cons] at h
    obtain ⟨⟨b, _⟩, hb, more⟩ := Except.bind_eq_ok_iff.mp h
    obtain ⟨t, rfl, other⟩ := sound.both hb
    obtain ⟨u, split, whole⟩ := sound.afterEither (.either derived other) more
    exact ⟨u, by simpa using split, whole⟩
  · rw [moreEither_stop fun us hs => next ⟨us, hs⟩] at h
    cases h
    exact ⟨s, rfl, derived⟩

theorem SoundAt.both_succ (sound : SoundAt fuel) (h : readBoth (fuel + 1) ts = .ok (e, rest)) :
    ∃ s, ts = s ++ rest ∧ Derives .both s e := by
  rw [readBoth] at h
  obtain ⟨⟨a, behind⟩, ha, more⟩ := Except.bind_eq_ok_iff.mp h
  obtain ⟨s, split, derived⟩ := sound.unary ha
  rw [split]
  exact sound.afterBoth (.single derived) more

theorem SoundAt.afterBoth_succ (sound : SoundAt fuel) (derived : Derives .both s a)
    (h : moreBoth (fuel + 1) a ts = .ok (e, rest)) :
    ∃ t, s ++ ts = t ++ rest ∧ Derives .both t e := by
  by_cases next : ∃ us, ts = .both :: us
  · obtain ⟨us, rfl⟩ := next
    rw [moreBoth_cons] at h
    obtain ⟨⟨b, _⟩, hb, more⟩ := Except.bind_eq_ok_iff.mp h
    obtain ⟨t, rfl, other⟩ := sound.unary hb
    obtain ⟨u, split, whole⟩ := sound.afterBoth (.both derived other) more
    exact ⟨u, by simpa using split, whole⟩
  · rw [moreBoth_stop fun us hs => next ⟨us, hs⟩] at h
    cases h
    exact ⟨s, rfl, derived⟩

theorem SoundAt.unary_succ (sound : SoundAt fuel) (h : readUnary (fuel + 1) ts = .ok (e, rest)) :
    ∃ s, ts = s ++ rest ∧ Derives .unary s e := by
  unfold readUnary at h
  split at h
  case h_1 => contradiction
  case h_2 same =>
    obtain rfl := Nat.succ.inj same
    obtain ⟨⟨a, _⟩, ha, done⟩ := Except.bind_eq_ok_iff.mp h
    obtain ⟨s, rfl, derived⟩ := sound.unary ha
    cases done
    exact ⟨.negation :: s, rfl, .negation derived⟩
  case h_3 same =>
    obtain rfl := Nat.succ.inj same
    obtain ⟨⟨a, behind⟩, ha, close⟩ := Except.bind_eq_ok_iff.mp h
    obtain ⟨s, rfl, derived⟩ := sound.either ha
    dsimp only at close
    split at close
    · cases close
      exact ⟨.opening :: s ++ [.closing], by simp, .parens derived⟩
    · cases close
  case h_4 => exact readComparison_sound h

theorem soundAt (fuel : Nat) : SoundAt fuel := by
  induction fuel with
  | zero =>
    refine ⟨nofun, ?_, nofun, ?_, nofun⟩
    · rintro ts rest s a e derived ⟨⟩
      exact ⟨s, rfl, derived⟩
    · rintro ts rest s a e derived ⟨⟩
      exact ⟨s, rfl, derived⟩
  | succ fuel ih =>
    exact ⟨ih.either_succ, ih.afterEither_succ, ih.both_succ, ih.afterBoth_succ, ih.unary_succ⟩

end Sound

/-! ## Completeness -/

/-- No comparison goes on with the operand in front. -/
def Uncompared (rest : List Token) : Prop := ∀ op us, rest ≠ .comparison op :: us

/-- What the reader makes of derived tokens in front of others, given four units of fuel for each.
Where operands can follow, the reader is left behind the ones that were derived, and has taken no
more than a unit for a token on its way. -/
def Reads (s : List Token) (e : Expression) : Level → Prop
  | .unary => ∀ fuel rest, 4 * s.length ≤ fuel → Uncompared rest →
      readUnary fuel (s ++ rest) = .ok (e, rest)
  | .both => ∀ fuel rest, 4 * s.length ≤ fuel → Uncompared rest →
      ∃ left, fuel ≤ left + s.length ∧ readBoth (fuel + 1) (s ++ rest) = moreBoth left e rest
  | .either => ∀ fuel rest, 4 * s.length + 1 ≤ fuel → Uncompared rest → (∀ us, rest ≠ .both :: us) →
      ∃ left, fuel ≤ left + s.length ∧ readEither (fuel + 1) (s ++ rest) = moreEither left e rest

section Complete

variable {s t : List Token} {a b : Expression}

theorem Derives.length_pos {level : Level} (h : Derives level s e) : 0 < s.length := by
  induction h with
  | joined _ ih | single _ ih => exact ih
  | either | both =>
    rw [List.length_append, List.length_cons]
    omega
  | negation | parens | compare | truth => exact Nat.succ_pos _

theorem Reads.single (h : Reads s e .unary) : Reads s e .both := by
  intro fuel rest enough stop
  refine ⟨fuel, Nat.le_add_right .., ?_⟩
  rw [readBoth, h fuel rest enough stop]
  rfl

theorem Reads.both (h : Reads s a .both) (other : Reads t b .unary) (pos : 0 < s.length) :
    Reads (s ++ .both :: t) (.both a b) .both := by
  intro fuel rest enough stop
  rw [List.length_append, List.length_cons] at enough ⊢
  obtain ⟨left, used, before⟩ := h fuel (.both :: (t ++ rest)) (by omega) nofun
  obtain ⟨left, rfl⟩ : ∃ n, left = n + 1 := ⟨left - 1, by omega⟩
  refine ⟨left, by omega, ?_⟩
  rw [List.append_assoc, List.cons_append, before, moreBoth_cons, other left rest (by omega) stop]
  rfl

theorem Reads.joined (h : Reads s e .both) : Reads s e .either := by
  intro fuel rest enough stop last
  obtain ⟨fuel, rfl⟩ : ∃ n, fuel = n + 1 := ⟨fuel - 1, by omega⟩
  obtain ⟨left, used, before⟩ := h fuel rest (by omega) stop
  refine ⟨fuel + 1, by omega, ?_⟩
  rw [readEither, before, moreBoth_stop last]
  rfl

theorem Reads.either (h : Reads s a .either) (other : Reads t b .both) (pos : 0 < s.length) :
    Reads (s ++ .either :: t) (.either a b) .either := by
  intro fuel rest enough stop last
  rw [List.length_append, List.length_cons] at enough ⊢
  obtain ⟨left, used, before⟩ := h fuel (.either :: (t ++ rest)) (by omega) nofun nofun
  obtain ⟨left, rfl⟩ : ∃ n, left = n + 2 := ⟨left - 2, by omega⟩
  obtain ⟨far, _, behind⟩ := other left rest (by omega) stop
  refine ⟨left + 1, by omega, ?_⟩
  rw [List.append_assoc, List.cons_append, before, moreEither_cons, behind, moreBoth_stop last]
  rfl

theorem Reads.negation (h : Reads s e .unary) : Reads (.negation :: s) (.negation e) .unary := by
  intro fuel rest enough stop
  rw [List.length_cons] at enough
  obtain ⟨fuel, rfl⟩ : ∃ n, fuel = n + 1 := ⟨fuel - 1, by omega⟩
  rw [List.cons_append, readUnary, h fuel rest (by omega) stop]
  rfl

theorem Reads.parens (h : Reads s e .either) : Reads (.opening :: s ++ [.closing]) e .unary := by
  intro fuel rest enough stop
  rw [List.length_append, List.length_cons, List.length_singleton] at enough
  obtain ⟨fuel, rfl⟩ : ∃ n, fuel = n + 2 := ⟨fuel - 2, by omega⟩
  obtain ⟨left, _, inner⟩ := h fuel (.closing :: rest) (by omega) nofun nofun
  rw [List.append_assoc, List.cons_append, List.singleton_append, readUnary, inner,
    moreEither_stop (by nofun)]
  rfl

theorem readUnary_operand (a : Operand) (ts : List Token) (fuel : Nat) :
    readUnary (fuel + 1) (a.token :: ts) = readComparison (a.token :: ts) := by
  cases a <;> rw [Operand.token, readUnary] <;> nofun

theorem reads_compare (op : Comparison) (a b : Operand) :
    Reads [a.token, .comparison op, b.token] (.compare op a b) .unary := by
  intro fuel rest enough stop
  obtain ⟨fuel, rfl⟩ : ∃ n, fuel = n + 1 := ⟨fuel - 1, by simp at enough; omega⟩
  rw [List.cons_append, readUnary_operand, readComparison, readOperand_eq_ok_iff.mpr rfl]
  change (readOperand (b.token :: rest) >>= _) = _
  rw [readOperand_eq_ok_iff.mpr rfl]
  rfl

theorem readComparison_stop (a : Operand) (stop : Uncompared ts) :
    readComparison (a.token :: ts) = .ok (.truth a, ts) := by
  rw [readComparison, readOperand_eq_ok_iff.mpr rfl]
  dsimp only [Bind.bind, Except.bind]
  split
  · exact absurd rfl (stop _ _)
  · rfl

theorem reads_truth (a : Operand) : Reads [a.token] (.truth a) .unary := by
  intro fuel rest enough stop
  obtain ⟨fuel, rfl⟩ : ∃ n, fuel = n + 1 := ⟨fuel - 1, by simp at enough; omega⟩
  rw [List.cons_append, readUnary_operand, List.nil_append, readComparison_stop a stop]

theorem Derives.reads {level : Level} (h : Derives level ts e) : Reads ts e level := by
  induction h with
  | joined _ ih => exact ih.joined
  | either h _ ih other => exact ih.either other h.length_pos
  | single _ ih => exact ih.single
  | both h _ ih other => exact ih.both other h.length_pos
  | negation _ ih => exact ih.negation
  | parens _ ih => exact ih.parens
  | compare op a b => exact reads_compare op a b
  | truth a => exact reads_truth a

end Complete

/-- The reader accepts what the grammar derives, as the expression that it derives. -/
theorem ofTokens_eq_ok_iff : ofTokens ts = .ok e ↔ Derives .either ts e := by
  constructor
  · intro h
    obtain ⟨⟨a, rest⟩, ha, done⟩ := Except.bind_eq_ok_iff.mp h
    obtain ⟨s, rfl, derived⟩ := (soundAt _).either ha
    dsimp only at done
    split at done
    · cases done
      rwa [List.append_nil]
    · cases done
  · intro h
    obtain ⟨left, _, whole⟩ := h.reads (4 * ts.length + 3) [] (by omega) nofun nofun
    rw [List.append_nil] at whole
    rw [ofTokens, steps, whole, moreEither_stop (by nofun)]
    rfl

end CommandContract.Condition
