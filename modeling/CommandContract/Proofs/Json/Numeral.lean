import CommandContract.Json.Printer
import CommandContract.Proofs.Json.Spelling
import CommandContract.Proofs.Number.Shortest
import Mathlib.Data.List.Basic

set_option autoImplicit false

/-!
# Numbers as they are printed

What the printer writes for a number is a numeral of JSON, and `Number.spelling` cuts it into its
parts. An integer of 64 bits is read from it as that integer, and typed by hand a binary number of
the format is read from it as that number.
-/
namespace CommandContract

open Json (IsDigits Spelling Exponent)

/-! ## Digits -/

namespace Json

theorem ofDigits_eq (cs : List Char) : Decimal.ofDigits cs = Nat.ofDigitChars 10 cs 0 :=
  Nat.ofDigitChars_eq_foldl.symm

theorem ofDigits_toDigits (n : Nat) : Decimal.ofDigits (Nat.toDigits 10 n) = n := by
  rw [ofDigits_eq]
  exact Nat.ofDigitChars_toDigits (by decide) (by decide)

theorem ofDigits_append_zeros (cs : List Char) (n : Nat) :
    Decimal.ofDigits (cs ++ List.replicate n '0') = Decimal.ofDigits cs * pow10 n := by
  rw [ofDigits_eq, Nat.ofDigitChars_append, Nat.ofDigitChars_replicate_zero, ← ofDigits_eq,
    Nat.mul_comm]
  rfl

theorem ofDigits_zeros_append (n : Nat) (cs : List Char) :
    Decimal.ofDigits (List.replicate n '0' ++ cs) = Decimal.ofDigits cs := by
  rw [ofDigits_eq, Nat.ofDigitChars_append, Nat.ofDigitChars_replicate_zero, Nat.mul_zero,
    ← ofDigits_eq]

theorem isDigit_of_mem_toDigits {n : Nat} {c : Char} (h : c ∈ Nat.toDigits 10 n) :
    c.isDigit = true :=
  Nat.isDigit_of_mem_toDigits (by decide) (by decide) h

theorem isDigits_toDigits (n : Nat) : IsDigits (Nat.toDigits 10 n) :=
  ⟨Nat.toDigits_ne_nil, fun _ hc => isDigit_of_mem_toDigits hc⟩

/-- The digits of a number do not begin with a zero, unless the number is zero. -/
theorem eq_zero_of_head?_toDigits {n : Nat} (h : (Nat.toDigits 10 n).head? = some '0') : n = 0 := by
  induction n using Nat.strongRecOn with
  | ind n ih =>
    by_cases small : n < 10
    · rw [Nat.toDigits_of_lt_base small] at h
      have digits := ofDigits_toDigits n
      rw [Nat.toDigits_of_lt_base small, Option.some.inj h] at digits
      exact digits.symm
    · rw [Nat.toDigits_eq_if (by decide), if_neg small,
        List.head?_append_of_ne_nil _ Nat.toDigits_ne_nil] at h
      have zero := ih (n / 10) (by omega) h
      omega

theorem toDigits_of_head? {n : Nat} (h : (Nat.toDigits 10 n).head? = some '0') :
    Nat.toDigits 10 n = ['0'] := by
  rw [eq_zero_of_head?_toDigits h]
  rfl

theorem isDigit_of_mem_zeros {n : Nat} {c : Char} (h : c ∈ List.replicate n '0') :
    c.isDigit = true := by
  rw [List.eq_of_mem_replicate h]
  rfl

/-! ## Integers -/

/-- An integer as it is written. -/
def ofInteger (n : Int) : Spelling := ⟨n < 0, Nat.toDigits 10 n.natAbs, [], none⟩

theorem valid_ofInteger (n : Int) : (ofInteger n).Valid :=
  ⟨isDigits_toDigits _, toDigits_of_head?, nofun, nofun⟩

theorem text_ofInteger (n : Int) : (ofInteger n).text = (Number.int n).text := by
  by_cases h : n < 0 <;> simp [ofInteger, Spelling.text, Spelling.pointed, Number.text, h]

theorem integer?_ofInteger (n : Int) : (ofInteger n).integer? = some n := by
  have plain : (ofInteger n).plain = true := rfl
  have size : (Decimal.ofDigits (ofInteger n).whole : Int) = n.natAbs :=
    congrArg Nat.cast (ofDigits_toDigits n.natAbs)
  rw [Spelling.integer?, if_pos plain, size]
  by_cases h : n < 0
  · have negative : (ofInteger n).negative = true := decide_eq_true h
    have back : -(n.natAbs : Int) = n := by omega
    rw [if_pos negative, back]
  · have positive : ¬ (ofInteger n).negative = true := fun hn => h (of_decide_eq_true hn)
    have back : (n.natAbs : Int) = n := by omega
    rw [if_neg positive, back]

theorem typed?_ofInteger {n : Int} (h : Number.isSigned n = true) :
    (ofInteger n).typed? = some (.int n) := by
  rw [Spelling.typed?, integer?_ofInteger, Option.filter_some_pos h]

theorem small_ofInteger {n : Int} (h : Number.isSigned n = true) : (ofInteger n).Small := by
  refine ⟨n, integer?_ofInteger n, h, fun negative => ?_⟩
  have : n < 0 := of_decide_eq_true negative
  omega

theorem number?_ofInteger {n : Int} (h : Number.isSigned n = true ∨ Number.isUnsigned n = true) :
    (ofInteger n).number? = some (.int n) := by
  rcases h with h | h
  · rw [(small_ofInteger h).number?_eq, typed?_ofInteger h]
  · have nonneg : 0 ≤ n := of_decide_eq_true (Bool.and_eq_true_iff.mp h).1
    have size : ((n.natAbs : Nat) : Int) = n := Int.natAbs_of_nonneg nonneg
    have strict : (ofInteger n).numeral.integer? = some n := by
      simp [Numeral.integer?, Spelling.numeral, Spelling.plain, ofInteger, ofDigits_toDigits,
        Int.not_lt.mpr nonneg, size, h]
    rw [Spelling.number?, Numeral.number?, strict]

end Json

/-! ## Binary numbers -/

namespace Decimal

open Json

/-- The parts of the layout without an exponent. -/
def positionalSpelling (d : Decimal) : Spelling :=
  let digits := Nat.toDigits 10 d.digits
  let places := (-d.exponent).toNat
  if 0 ≤ d.exponent then
    ⟨d.negative, digits ++ List.replicate d.exponent.toNat '0', ['0'], none⟩
  else if places < digits.length then
    ⟨d.negative, digits.take (digits.length - places), digits.drop (digits.length - places), none⟩
  else ⟨d.negative, ['0'], List.replicate (places - digits.length) '0' ++ digits, none⟩

theorem text_positionalSpelling (d : Decimal) : d.positionalSpelling.text = d.positional true := by
  unfold positionalSpelling positional
  dsimp only
  split
  · simp [Spelling.text, Spelling.pointed, sign]
  · split
    · have rest : (Nat.toDigits 10 d.digits).drop
          ((Nat.toDigits 10 d.digits).length - (-d.exponent).toNat) ≠ [] := by
        rw [Ne, List.drop_eq_nil_iff]
        omega
      simp [Spelling.text, Spelling.pointed, sign, rest]
    · have rest := Nat.toDigits_ne_nil (n := d.digits) (b := 10)
      simp [Spelling.text, Spelling.pointed, sign, rest]

theorem valid_positionalSpelling {d : Decimal} (h : d.digits = 0 → d.exponent ≤ 0) :
    d.positionalSpelling.Valid := by
  unfold positionalSpelling
  dsimp only
  split
  · rename_i scaled
    refine ⟨⟨by simp [Nat.toDigits_ne_nil], ?_⟩, ?_, List.forall_mem_singleton.mpr rfl, nofun⟩
    · exact List.forall_mem_append.mpr
        ⟨fun _ => isDigit_of_mem_toDigits, fun _ => isDigit_of_mem_zeros⟩
    · intro first
      rw [List.head?_append_of_ne_nil _ Nat.toDigits_ne_nil] at first
      have zero := eq_zero_of_head?_toDigits first
      have unscaled : d.exponent = 0 := Int.le_antisymm (h zero) scaled
      rw [unscaled, zero]
      rfl
  · split
    · rename_i short
      refine ⟨⟨?_, fun _ hc => isDigit_of_mem_toDigits (List.mem_of_mem_take hc)⟩, ?_,
        fun _ hc => isDigit_of_mem_toDigits (List.mem_of_mem_drop hc), nofun⟩
      · rw [Ne, List.take_eq_nil_iff]
        rintro (none | none)
        · omega
        · exact Nat.toDigits_ne_nil none
      · intro first
        rw [List.head?_take, if_neg (by omega)] at first
        have one := congrArg List.length (toDigits_of_head? first)
        rw [List.length_singleton] at one
        omega
    · refine ⟨⟨nofun, List.forall_mem_singleton.mpr rfl⟩, fun _ => rfl, ?_, nofun⟩
      exact List.forall_mem_append.mpr
        ⟨fun _ => isDigit_of_mem_zeros, fun _ => isDigit_of_mem_toDigits⟩

/-- The parts of the layout with an exponent. -/
def scientificSpelling (d : Decimal) : Spelling :=
  let digits := Nat.toDigits 10 d.digits
  ⟨d.negative, digits.take 1, digits.drop 1,
    some ⟨'e', some (if d.leading < 0 then '-' else '+'), Nat.toDigits 10 d.leading.natAbs⟩⟩

theorem text_scientificSpelling (d : Decimal) : d.scientificSpelling.text = d.scientific := by
  have mark : ∀ e : Int, (if e < 0 then ['e', '-'] else ['e', '+']) =
      ['e', if e < 0 then '-' else '+'] := by
    intro e
    split <;> rfl
  unfold scientificSpelling scientific
  dsimp only
  rw [mark]
  cases Nat.toDigits 10 d.digits with
  | nil => simp [Spelling.text, Spelling.pointed, Exponent.text, sign]
  | cons c cs =>
    cases cs <;> simp [Spelling.text, Spelling.pointed, Exponent.text, sign]

theorem decimal_scientificSpelling (d : Decimal) : d.scientificSpelling.decimal = d := by
  have power : d.scientificSpelling.power = d.leading := by
    rw [scientificSpelling, Spelling.power, Option.map_some, Option.getD_some, Exponent.value,
      ofDigits_toDigits]
    by_cases negative : d.leading < 0
    · rw [if_pos negative, if_pos rfl]
      omega
    · have plus : some '+' ≠ some '-' := by decide
      rw [if_neg negative, if_neg plus]
      omega
  have nonempty := List.length_pos_iff.mpr (Nat.toDigits_ne_nil (n := d.digits) (b := 10))
  have exponent : d.leading - ((Nat.toDigits 10 d.digits).drop 1).length = d.exponent := by
    rw [leading, List.length_drop]
    omega
  rw [Spelling.decimal, power]
  unfold scientificSpelling
  rw [List.take_append_drop, ofDigits_toDigits, exponent]

theorem valid_scientificSpelling (d : Decimal) : d.scientificSpelling.Valid := by
  unfold scientificSpelling
  dsimp only
  cases digits : Nat.toDigits 10 d.digits with
  | nil => exact absurd digits Nat.toDigits_ne_nil
  | cons c cs =>
    have all : ∀ c' ∈ c :: cs, c'.isDigit = true := by
      rw [← digits]
      exact fun _ => isDigit_of_mem_toDigits
    refine ⟨⟨nofun, List.forall_mem_singleton.mpr (all c List.mem_cons_self)⟩, ?_,
      fun c' hc => all c' (List.mem_cons_of_mem c hc), ?_⟩
    · intro first
      rw [Option.some.inj first]
      rfl
    · rintro _ ⟨⟩
      refine ⟨.inl rfl, ?_, isDigits_toDigits _⟩
      dsimp only
      split
      · exact .inr (.inr rfl)
      · exact .inr (.inl rfl)

/-- The layout spells the decimal, an integral one with a zero more. -/
theorem decimal_positionalSpelling (d : Decimal) : d.positionalSpelling.decimal =
    if 0 ≤ d.exponent then ⟨d.negative, d.digits * pow10 (d.exponent.toNat + 1), -1⟩ else d := by
  unfold positionalSpelling
  dsimp only
  split
  · have zeros : Nat.toDigits 10 d.digits ++ List.replicate d.exponent.toNat '0' ++ ['0'] =
        Nat.toDigits 10 d.digits ++ List.replicate (d.exponent.toNat + 1) '0' := by
      rw [List.replicate_succ', List.append_assoc]
    rw [Spelling.decimal, zeros, ofDigits_append_zeros, ofDigits_toDigits]
    rfl
  · have places : d.exponent = 0 - ((-d.exponent).toNat : Nat) := by omega
    split
    · have count : ((Nat.toDigits 10 d.digits).drop
          ((Nat.toDigits 10 d.digits).length - (-d.exponent).toNat)).length =
            (-d.exponent).toNat := by
        rw [List.length_drop]
        omega
      rw [Spelling.decimal, List.take_append_drop, ofDigits_toDigits, count]
      exact congrArg (Decimal.mk d.negative d.digits) places.symm
    · have count : (List.replicate ((-d.exponent).toNat - (Nat.toDigits 10 d.digits).length) '0' ++
          Nat.toDigits 10 d.digits).length = (-d.exponent).toNat := by
        rw [List.length_append, List.length_replicate]
        omega
      have zeros := ofDigits_zeros_append
        ((-d.exponent).toNat - (Nat.toDigits 10 d.digits).length + 1) (Nat.toDigits 10 d.digits)
      rw [List.replicate_succ, List.cons_append, ofDigits_toDigits] at zeros
      rw [Spelling.decimal, List.singleton_append, zeros, count]
      exact congrArg (Decimal.mk d.negative d.digits) places.symm

theorem inRange_positionalSpelling {d : Decimal} (h : InRange d.digits d.exponent) :
    InRange d.positionalSpelling.decimal.digits d.positionalSpelling.decimal.exponent := by
  rw [decimal_positionalSpelling]
  split
  · have point : ((0 : Nat) : Int) = -1 + (1 : Nat) := rfl
    have power : ((d.exponent.toNat + 1 : Nat) : Int) = d.exponent + (1 : Nat) := by omega
    refine (inRange_iff point).mpr ?_
    have one : pow10 0 = 1 := rfl
    rw [one, Nat.mul_one]
    exact (inRange_iff power).mp h
  · exact h

end Decimal

namespace Number

/-- The parts of the written form. -/
def spelling : Number → Spelling
  | int n => Json.ofInteger n
  | float x =>
    let d := Decimal.shortest .toEven x
    if x.isZero || (-5 ≤ d.leading && d.leading ≤ 15) then d.positionalSpelling
    else d.scientificSpelling

theorem text_spelling (n : Number) : n.spelling.text = n.text := by
  cases n with
  | int n => exact Json.text_ofInteger n
  | float x =>
    unfold spelling text Binary64.text
    dsimp only
    split
    · exact Decimal.text_positionalSpelling _
    · exact Decimal.text_scientificSpelling _

theorem valid_spelling (n : Number) : n.spelling.Valid := by
  cases n with
  | int n => exact Json.valid_ofInteger n
  | float x =>
    obtain ⟨digits, exponent, shortest, printed⟩ := Decimal.exists_printed .toEven x
    unfold spelling
    dsimp only
    rw [shortest]
    split
    · exact Decimal.valid_positionalSpelling printed.exponent_le
    · exact Decimal.valid_scientificSpelling _

/-- A number that a JSON value can hold: an integer of 64 bits, signed or unsigned, or a binary
number of the format. -/
def Held : Number → Prop
  | int n => isSigned n = true ∨ isUnsigned n = true
  | float x => x.Finite

theorem Held.inRange {n : Int} (h : (int n).Held) : Decimal.InRange n.natAbs 0 := by
  have small : n.natAbs < pow2 64 := by
    have size : pow2 64 = 18446744073709551616 := by rfl
    rw [size]
    rcases h with h | h
    · obtain ⟨low, high⟩ := Bool.and_eq_true_iff.mp h
      have low : -9223372036854775808 ≤ n := of_decide_eq_true low
      have high : n ≤ 9223372036854775807 := of_decide_eq_true high
      omega
    · obtain ⟨low, high⟩ := Bool.and_eq_true_iff.mp h
      have low : 0 ≤ n := of_decide_eq_true low
      have high : n ≤ 18446744073709551615 := of_decide_eq_true high
      omega
  have places : ((0 : Nat) : Int) = 0 + (0 : Nat) := rfl
  refine (Decimal.inRange_iff places).mpr (Nat.mul_lt_mul_of_pos_right ?_ (pow10_pos 0))
  calc n.natAbs < pow2 64 := small
    _ ≤ pow2 970 := pow2_le_pow2 (by decide)
    _ ≤ Binary64.limit := Nat.le_mul_of_pos_left _ (by decide)

theorem Held.inRange_spelling {n : Number} (h : n.Held) :
    Decimal.InRange n.spelling.decimal.digits n.spelling.decimal.exponent := by
  cases n with
  | int n =>
    have digits : (Json.ofInteger n).decimal.digits = n.natAbs := by
      rw [Spelling.decimal, Json.ofInteger, List.append_nil, Json.ofDigits_toDigits]
    rw [spelling, digits]
    exact h.inRange
  | float x =>
    obtain ⟨digits, exponent, shortest, printed⟩ := Decimal.exists_printed .toEven x
    have inRange := printed.inRange h
    unfold spelling
    dsimp only
    rw [shortest]
    split
    · exact Decimal.inRange_positionalSpelling inRange
    · rw [Decimal.decimal_scientificSpelling]
      exact inRange

/-- The written form of a number is a number again when it is typed by hand. -/
theorem Held.typed? {n : Number} (h : n.Held) : ∃ m, n.spelling.typed? = some m := by
  rw [Spelling.typed?]
  split
  · exact ⟨_, rfl⟩
  · obtain ⟨x, hx⟩ := Decimal.toBinary?_of_inRange h.inRange_spelling
    exact ⟨.float x, by rw [hx]; rfl⟩

/-- What the number is when its text is typed by hand. -/
theorem ofNumeral?_text (n : Number) : ofNumeral? n.text = n.spelling.typed? := by
  rw [← text_spelling, Spelling.ofNumeral?_text n.valid_spelling]

/-! ### Exponents -/

theorem exponent_positionalSpelling (d : Decimal) : d.positionalSpelling.exponent = none := by
  unfold Decimal.positionalSpelling
  dsimp only
  split
  · rfl
  · split <;> rfl

/-- The exponent of a number in print has a small letter, and always a sign. -/
theorem exponent_spelling {n : Number} {e : Exponent} (h : n.spelling.exponent = some e) :
    e.mark = 'e' ∧ (e.sign = some '+' ∨ e.sign = some '-') := by
  cases n with
  | int n => cases h
  | float x =>
    unfold spelling at h
    dsimp only at h
    split at h
    · rw [exponent_positionalSpelling] at h
      cases h
    · cases h
      refine ⟨rfl, ?_⟩
      dsimp only
      split
      · exact .inr rfl
      · exact .inl rfl

theorem mem_text_iff (n : Number) : 'e' ∈ n.text ↔ ∃ e, n.spelling.exponent = some e := by
  have valid := n.valid_spelling
  have digits : ∀ cs : List Char, (∀ c ∈ cs, c.isDigit = true) → 'e' ∉ cs :=
    fun cs all he => absurd (all 'e' he) (by decide)
  have sign : 'e' ∉ (if n.spelling.negative then ['-'] else []) := by split <;> decide
  have fraction : 'e' ∉ Spelling.pointed n.spelling.fraction := by
    unfold Spelling.pointed
    split
    · exact List.not_mem_nil
    · exact List.not_mem_cons_of_ne_of_not_mem (by decide) (digits _ valid.fraction)
  rw [← text_spelling, Spelling.text]
  simp only [List.mem_append, sign, digits _ valid.whole.2, fraction, false_or]
  cases h : n.spelling.exponent with
  | none => simp
  | some e => simp [Exponent.text, (exponent_spelling h).1]

/-! ### Native numbers -/

/-- An integer of 64 bits with a sign, or a binary number of the format. -/
def Native : Number → Prop
  | int n => isSigned n = true
  | float x => x.Canonical

theorem toBinary?_spelling {x : Binary64} (h : x.Canonical) :
    (float x).spelling.decimal.toBinary? = some x := by
  obtain ⟨digits, exponent, shortest, printed⟩ := Decimal.exists_printed .toEven x
  unfold spelling
  dsimp only
  rw [shortest]
  split
  · rw [Decimal.decimal_positionalSpelling]
    split
    · rename_i integral
      have power : -1 + ((exponent.toNat + 1 : Nat) : Int) = exponent := by
        dsimp only at integral
        omega
      exact printed.toBinary?_zeros h power
    · exact printed.toBinary? h
  · rw [Decimal.decimal_scientificSpelling]
    exact printed.toBinary? h

/-- The written form of a native number is the number when it is typed by hand. -/
theorem Native.typed? {n : Number} (h : n.Native) : n.spelling.typed? = some n := by
  cases n with
  | int n => exact Json.typed?_ofInteger h
  | float x =>
    have fraction : (float x).spelling.integer? = none := by
      rw [← Spelling.integer?_text (valid_spelling _), text_spelling]
      exact x.integer?_text
    rw [Spelling.typed?, fraction, toBinary?_spelling h]
    rfl

instance : DecidablePred Native
  | int n => inferInstanceAs (Decidable (isSigned n = true))
  | float x => inferInstanceAs (Decidable x.Canonical)

/-- Every number typed by hand is native. -/
theorem native_of_ofNumeral? {cs : List Char} {n : Number} (h : ofNumeral? cs = some n) :
    n.Native := by
  unfold ofNumeral? at h
  split at h
  · rename_i i integer
    cases h
    exact (Option.filter_eq_some_iff.mp integer).2
  · obtain ⟨x, binary, rfl⟩ := Option.map_eq_some_iff.mp h
    obtain ⟨d, -, rounded⟩ := Option.bind_eq_some_iff.mp binary
    exact Decimal.canonical_of_toBinary? rounded

/-! ### Reading back -/

/-- A binary number in print spells its own quantity. -/
def ReadsBack (n : Number) : Prop :=
  ∀ x, n = .float x → ∃ y, finiteBinary? x.text = some y ∧ y.same x = true

theorem Native.readsBack {n : Number} (h : n.Native) : n.ReadsBack := by
  rintro x rfl
  have spelled : x.text = (float x).spelling.text := (text_spelling (float x)).symm
  refine ⟨x, ?_, beq_self_eq_true _⟩
  rw [finiteBinary?, spelled, Spelling.ofText?_text (valid_spelling _)]
  exact toBinary?_spelling h

/-- An integer too large for a sign is rounded as its quantity is. -/
theorem Held.toBinary? {n : Int} (h : (int n).Held) (large : n ≠ 0) :
    (Json.ofInteger n).decimal.toBinary? = some (.ofInt n) := by
  have digits : (Json.ofInteger n).decimal = ⟨n < 0, n.natAbs, 0⟩ := by
    rw [Spelling.decimal, Json.ofInteger, List.append_nil, Json.ofDigits_toDigits]
    rfl
  have nonzero : n.natAbs ≠ 0 := Int.natAbs_ne_zero.mpr large
  have size := h.inRange.size_le nonzero
  have one : pow10 0 = 1 := rfl
  have small : n.natAbs < Binary64.limit * 1 := by
    have range := h.inRange
    rwa [Decimal.InRange, Int.neg_zero, Int.toNat_zero, one, Nat.mul_one] at range
  rw [digits, Decimal.toBinary?]
  simp only [Int.add_zero, Int.toNat_zero, Int.neg_zero, one, Nat.mul_one] at size ⊢
  have above : ¬ ((Nat.toDigits 10 n.natAbs).length : Int) < -400 := by omega
  rw [decide_eq_false nonzero, decide_eq_false above, if_neg (by decide),
    if_neg (Int.not_lt.mpr size), Binary64.ofRatio?_of_lt _ small]
  rfl

/-- Typed by hand, the written form of a number is its quantity. -/
theorem Held.exists_typed {n : Number} (h : n.Held) (back : n.ReadsBack) :
    ∃ m, ofNumeral? n.text = some m ∧ m.toBinary.same n.toBinary = true := by
  cases n with
  | int n =>
    rw [ofNumeral?_text]
    by_cases signed : isSigned n = true
    · exact ⟨.int n, Json.typed?_ofInteger signed, beq_self_eq_true _⟩
    · have large : n ≠ 0 := by
        rintro rfl
        exact signed (by decide)
      refine ⟨.float (.ofInt n), ?_, beq_self_eq_true _⟩
      rw [spelling, Spelling.typed?, Json.integer?_ofInteger, Option.filter_some_neg
        (Bool.eq_false_of_not_eq_true signed), h.toBinary? large]
      rfl
  | float x =>
    obtain ⟨y, read, same⟩ := back x rfl
    have whole : signedInteger? x.text = none := by
      rw [signedInteger?, x.integer?_text]
      rfl
    refine ⟨.float y, ?_, same⟩
    rw [text, ofNumeral?, whole, read]
    rfl

end Number

end CommandContract
