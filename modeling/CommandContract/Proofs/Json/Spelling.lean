import CommandContract.Json.Reader
import CommandContract.Number.Numeral
import CommandContract.Proofs.Number.Text
import CommandContract.Proofs.Text.Run

set_option autoImplicit false

/-!
# Numerals of JSON as they are written

A numeral of JSON in its parts, what the strict reader makes of it, and what it is as a number typed
by hand. The two differ where a number typed by hand is rounded once and JSON keeps 64 unsigned
bits, keeps the sign of a zero or rounds twice.
-/
namespace CommandContract.Json

open Text (Run run_iff)

def IsDigits (cs : List Char) : Prop := cs ≠ [] ∧ ∀ c ∈ cs, c.isDigit = true

/-- An exponent as it is written. -/
structure Exponent where
  mark : Char
  sign : Option Char
  digits : List Char

namespace Exponent

structure Valid (e : Exponent) : Prop where
  mark : e.mark = 'e' ∨ e.mark = 'E'
  sign : e.sign = none ∨ e.sign = some '+' ∨ e.sign = some '-'
  digits : IsDigits e.digits

def text (e : Exponent) : List Char := e.mark :: (e.sign.toList ++ e.digits)

def value (e : Exponent) : Int :=
  if e.sign = some '-' then -(Decimal.ofDigits e.digits) else Decimal.ofDigits e.digits

end Exponent

/-- A numeral as it is written. -/
structure Spelling where
  negative : Bool
  whole : List Char
  /-- the digits behind the point; empty if there is no point -/
  fraction : List Char
  exponent : Option Exponent

namespace Spelling

/-- The whole part is not empty, and a zero stands in it alone. -/
structure Valid (t : Spelling) : Prop where
  whole : IsDigits t.whole
  zero : t.whole.head? = some '0' → t.whole = ['0']
  fraction : ∀ c ∈ t.fraction, c.isDigit = true
  exponent : ∀ e ∈ t.exponent, e.Valid

/-- The point and what is behind it. -/
def pointed (digits : List Char) : List Char := if digits = [] then [] else '.' :: digits

def text (t : Spelling) : List Char :=
  (if t.negative then ['-'] else []) ++
    (t.whole ++ (pointed t.fraction ++ (t.exponent.map Exponent.text).getD []))

/-- Without point and exponent. -/
def plain (t : Spelling) : Bool := t.fraction.isEmpty && t.exponent.isNone

def power (t : Spelling) : Int := (t.exponent.map Exponent.value).getD 0

/-- What the strict reader cuts the numeral into. -/
def numeral (t : Spelling) : Numeral := ⟨t.negative, t.whole, t.fraction, t.power, t.plain⟩

/-- The number that the numeral is in JSON. -/
def number? (t : Spelling) : Option Number := t.numeral.number?

/-- The integer that a numeral without point and exponent spells, of any size. -/
def integer? (t : Spelling) : Option Int :=
  if t.plain then
    some (if t.negative then -(Decimal.ofDigits t.whole) else Decimal.ofDigits t.whole)
  else none

/-- The exact value of the numeral. -/
def decimal (t : Spelling) : Decimal :=
  ⟨t.negative, Decimal.ofDigits (t.whole ++ t.fraction), t.power - t.fraction.length⟩

/-- The number that the numeral is when it is typed by hand: an integer of 64 signed bits, or the
nearest finite binary number. -/
def typed? (t : Spelling) : Option Number :=
  match t.integer?.filter Number.isSigned with
  | some n => some (.int n)
  | none => t.decimal.toBinary?.map .float

/-- An integer of 64 signed bits, and not a zero with a minus. -/
def Small (t : Spelling) : Prop :=
  ∃ n, t.integer? = some n ∧ Number.isSigned n = true ∧ (t.negative = true → n ≠ 0)

end Spelling

theorem Spelling.Valid.begins {t : Spelling} (h : t.Valid) :
    ∃ c cs, t.text = c :: cs ∧ isNumeralStart c = true := by
  obtain ⟨negative, whole, fraction, exponent⟩ := t
  cases negative with
  | true => exact ⟨'-', _, rfl, rfl⟩
  | false =>
    have digits := h.whole
    cases whole with
    | nil => exact absurd rfl digits.1
    | cons c cs => exact ⟨c, _, rfl, by simp [isNumeralStart, digits.2 c List.mem_cons_self]⟩

/-! ## What the strict reader takes for a numeral -/

section Reading

variable {cs rest : List Char}

/-- A run of digits as the readers of a numeral take it. -/
theorem digits_of_span {digits : List Char} (h : cs.span Char.isDigit = (digits, rest))
    (hne : ¬ digits.isEmpty = true) : IsDigits digits ∧ cs = digits ++ rest :=
  have run := run_iff.mpr h
  ⟨⟨fun he => hne (by rw [he]; rfl), run.all⟩, run.split⟩

theorem readWhole_eq_some {digits : List Char} (h : readWhole cs = some (digits, rest)) :
    IsDigits digits ∧ (digits.head? = some '0' → digits = ['0']) ∧ cs = digits ++ rest := by
  unfold readWhole at h
  split at h
  · cases h
    exact ⟨⟨nofun, by simp⟩, fun _ => rfl, rfl⟩
  · rename_i other
    cases hs : cs.span Char.isDigit with
    | mk run behind =>
      simp only [hs] at h
      split at h
      · cases h
      · rename_i hne
        cases h
        obtain ⟨valid, rfl⟩ := digits_of_span hs hne
        refine ⟨valid, fun hz => ?_, rfl⟩
        obtain ⟨ds, rfl⟩ := List.head?_eq_some_iff.mp hz
        exact absurd rfl (other _)

theorem readFraction_eq_some {digits : List Char} (h : readFraction cs = some (digits, rest)) :
    (∀ c ∈ digits, c.isDigit = true) ∧ cs = Spelling.pointed digits ++ rest := by
  unfold readFraction at h
  split at h
  · rename_i cs
    cases hs : cs.span Char.isDigit with
    | mk run behind =>
      simp only [hs] at h
      split at h
      · cases h
      · rename_i hne
        cases h
        obtain ⟨⟨hne, all⟩, rfl⟩ := digits_of_span hs hne
        refine ⟨all, ?_⟩
        rw [Spelling.pointed, if_neg hne, List.cons_append]
  · cases h
    exact ⟨nofun, rfl⟩

theorem exponent_of_span {mark : Char} {sign : Option Char} {body digits : List Char}
    (hm : mark = 'e' ∨ mark = 'E') (hs : sign = none ∨ sign = some '+' ∨ sign = some '-')
    (hd : body.span Char.isDigit = (digits, rest)) (hne : ¬ digits.isEmpty = true) :
    ∃ e : Exponent, e.Valid ∧
      e.value = (if sign = some '-' then -(Decimal.ofDigits digits : Int)
        else Decimal.ofDigits digits) ∧
      mark :: (sign.toList ++ body) = e.text ++ rest := by
  obtain ⟨valid, rfl⟩ := digits_of_span hd hne
  exact ⟨⟨mark, sign, digits⟩, ⟨hm, hs, valid⟩, rfl, by simp [Exponent.text]⟩

theorem readExponent_eq_some {value : Option Int} (h : readExponent cs = some (value, rest)) :
    ∃ e : Option Exponent, (∀ e' ∈ e, e'.Valid) ∧ value = e.map Exponent.value ∧
      cs = (e.map Exponent.text).getD [] ++ rest := by
  unfold readExponent at h
  split at h
  · rename_i mark cs
    split at h
    · rename_i hm
      split at h
      rename_i negative body he
      cases hd : body.span Char.isDigit with
      | mk digits behind =>
        simp only [hd] at h
        split at h
        · cases h
        · rename_i hne
          cases h
          have signed : ∃ sign : Option Char, (sign = none ∨ sign = some '+' ∨ sign = some '-') ∧
              cs = sign.toList ++ body ∧ (negative = true ↔ sign = some '-') := by
            split at he <;> cases he
            · exact ⟨some '-', .inr (.inr rfl), rfl, by decide⟩
            · exact ⟨some '+', .inr (.inl rfl), rfl, by decide⟩
            · exact ⟨none, .inl rfl, rfl, by decide⟩
          obtain ⟨sign, hs, rfl, same⟩ := signed
          obtain ⟨e, valid, hv, text⟩ := exponent_of_span hm hs hd hne
          refine ⟨some e, fun e' he' => ?_, ?_, text⟩
          · rw [Option.mem_some.mp he'] at valid
            exact valid
          · rw [Option.map_some, hv]
            simp only [same]
    · cases h
      exact ⟨none, nofun, rfl, rfl⟩
  · cases h
    exact ⟨none, nofun, rfl, rfl⟩

theorem readNumeral_eq_some {x : Numeral} (h : readNumeral cs = some (x, rest)) :
    ∃ t : Spelling, t.Valid ∧ x = t.numeral ∧ cs = t.text ++ rest := by
  unfold readNumeral at h
  split at h
  rename_i negative body hb
  have split : cs = (if negative then ['-'] else []) ++ body := by
    split at hb <;> cases hb <;> rfl
  simp only [Option.bind_eq_bind, Option.bind_eq_some_iff] at h
  obtain ⟨⟨whole, _⟩, hw, ⟨fraction, _⟩, hf, ⟨_, _⟩, he, h⟩ := h
  cases h
  obtain ⟨digits, zero, rfl⟩ := readWhole_eq_some hw
  obtain ⟨behind, rfl⟩ := readFraction_eq_some hf
  obtain ⟨exponent, valid, rfl, rfl⟩ := readExponent_eq_some he
  refine ⟨⟨negative, whole, fraction, exponent⟩, ⟨digits, zero, behind, valid⟩, ?_, ?_⟩
  · simp [Spelling.numeral, Spelling.power, Spelling.plain]
  · rw [split]
    simp [Spelling.text]

end Reading

/-! ## What a numeral is when it is typed by hand -/

section Typed

variable {digits : List Char}

theorem IsDigits.all (h : IsDigits digits) : digits.all Char.isDigit = true :=
  List.all_eq_true.mpr h.2

theorem IsDigits.isEmpty (h : IsDigits digits) : digits.isEmpty = false := by
  rw [List.isEmpty_eq_false_iff]
  exact h.1

theorem integer?_digits (h : IsDigits digits) :
    Decimal.integer? digits = some (Decimal.ofDigits digits) := by
  unfold Decimal.integer?
  split
  rename_i negative body he
  split at he <;> cases he
  · exact absurd (h.2 '-' List.mem_cons_self) (by decide)
  · exact absurd (h.2 '+' List.mem_cons_self) (by decide)
  · simp [h.isEmpty, h.all]

theorem integer?_minus (h : IsDigits digits) :
    Decimal.integer? ('-' :: digits) = some (-(Decimal.ofDigits digits : Int)) := by
  simp [Decimal.integer?, h.isEmpty, h.all]

theorem Exponent.Valid.integer? {e : Exponent} (h : e.Valid) :
    Decimal.integer? (e.sign.toList ++ e.digits) = some e.value := by
  obtain ⟨mark, sign, digits⟩ := e
  have valid := h.digits
  rcases h.sign with rfl | rfl | rfl
  · exact integer?_digits valid
  · simp [Decimal.integer?, valid.isEmpty, valid.all, Exponent.value]
  · exact integer?_minus valid

namespace Spelling

variable {t : Spelling}

theorem integer?_text (h : t.Valid) : Decimal.integer? t.text = t.integer? := by
  obtain ⟨negative, whole, fraction, exponent⟩ := t
  cases fraction with
  | cons c fraction =>
    have point : '.' ∈ text ⟨negative, whole, c :: fraction, exponent⟩ := by
      simp [text, pointed]
    rw [Decimal.integer?_of_mem point rfl (by decide) (by decide)]
    rfl
  | nil =>
    cases exponent with
    | some e =>
      have mark : e.mark ∈ text ⟨negative, whole, [], some e⟩ := by
        simp [text, Exponent.text]
      have other : e.mark.isDigit = false ∧ e.mark ≠ '-' ∧ e.mark ≠ '+' := by
        rcases (h.exponent e rfl).mark with hm | hm <;> rw [hm] <;> decide
      rw [Decimal.integer?_of_mem mark other.1 other.2.1 other.2.2]
      rfl
    | none =>
      cases negative with
      | true =>
        simp only [text, pointed, if_true, Option.map_none, Option.getD_none, List.append_nil]
        exact integer?_minus h.whole
      | false =>
        simp only [text, pointed, if_true, Option.map_none, Option.getD_none, List.append_nil]
        exact integer?_digits h.whole

theorem span_digits {cs rest : List Char} (all : ∀ c ∈ cs, c.isDigit = true)
    (ended : ∀ c ∈ rest.head?, c.isDigit = false) :
    (cs ++ rest).span Char.isDigit = (cs, rest) :=
  run_iff.mp ⟨rfl, all, ended⟩

theorem exponent_over (h : t.Valid) :
    ∀ c ∈ ((t.exponent.map Exponent.text).getD []).head?, c.isDigit = false ∧ c ≠ '.' := by
  intro c hc
  cases he : t.exponent with
  | none =>
    rw [he] at hc
    cases hc
  | some e =>
    rw [he] at hc
    cases hc
    rcases (h.exponent e he).mark with hm | hm <;> rw [hm] <;> decide

/-- What stands behind the digits of a numeral, as an exponent. -/
def exponent? : List Char → Option Int
  | [] => some 0
  | c :: cs => if c = 'e' ∨ c = 'E' then Decimal.integer? cs else none

/-- The digits of a numeral and what stands behind them, read from the first digit on. -/
theorem ofText?_digits {negative : Bool} {whole fraction rest : List Char} (hw : IsDigits whole)
    (hf : ∀ c ∈ fraction, c.isDigit = true)
    (ended : ∀ c ∈ rest.head?, c.isDigit = false ∧ c ≠ '.') :
    Decimal.ofText? ((if negative then ['-'] else []) ++ (whole ++ (pointed fraction ++ rest))) =
      (exponent? rest).map fun k =>
        ⟨negative, Decimal.ofDigits (whole ++ fraction), k - fraction.length⟩ := by
  unfold Decimal.ofText?
  split
  rename_i sign body he
  have start : sign = negative ∧ body = whole ++ (pointed fraction ++ rest) := by
    cases negative with
    | true =>
      cases he
      exact ⟨rfl, rfl⟩
    | false =>
      obtain ⟨c, cs, rfl⟩ := List.exists_cons_of_ne_nil hw.1
      have hc := hw.2 c List.mem_cons_self
      simp only [List.cons_append] at he
      split at he
      · rename_i heq
        cases heq
        exact absurd hc (by decide)
      · rename_i heq
        cases heq
        exact absurd hc (by decide)
      · cases he
        exact ⟨rfl, rfl⟩
  obtain ⟨rfl, rfl⟩ := start
  have stop : ∀ c ∈ (pointed fraction ++ rest).head?, c.isDigit = false := by
    cases fraction with
    | nil => exact fun c hc => (ended c hc).1
    | cons d ds =>
      rintro c ⟨⟩
      rfl
  rw [span_digits hw.2 stop]
  cases fraction with
  | nil =>
    cases rest with
    | nil => simp [pointed, hw.1, exponent?]
    | cons e rest =>
      have point := (ended e rfl).2
      by_cases mark : e = 'e' ∨ e = 'E' <;> simp [pointed, hw.1, exponent?, point, mark]
  | cons d ds =>
    simp only [pointed, reduceCtorEq, if_false, List.cons_append]
    rw [← List.cons_append, span_digits hf fun c hc => (ended c hc).1]
    cases rest with
    | nil => simp [exponent?]
    | cons e rest => by_cases mark : e = 'e' ∨ e = 'E' <;> simp [exponent?, mark]

theorem exponent?_text (h : t.Valid) :
    exponent? ((t.exponent.map Exponent.text).getD []) = some t.power := by
  cases he : t.exponent with
  | none => simp [exponent?, power, he]
  | some e =>
    have valid := h.exponent e he
    simp [exponent?, power, he, Exponent.text, valid.mark, valid.integer?]

theorem ofText?_text (h : t.Valid) : Decimal.ofText? t.text = some t.decimal := by
  rw [text, ofText?_digits h.whole h.fraction (exponent_over h), exponent?_text h]
  rfl

theorem ofNumeral?_text (h : t.Valid) : Number.ofNumeral? t.text = t.typed? := by
  rw [Number.ofNumeral?, signedInteger?, finiteBinary?, integer?_text h, ofText?_text h, typed?]
  rfl

/-- An integer of 64 signed bits is one number in both readings. -/
theorem Small.number?_eq (h : t.Small) : t.number? = t.typed? := by
  obtain ⟨n, hn, small, sign⟩ := h
  have typed : t.typed? = some (.int n) := by
    rw [typed?, hn, Option.filter_some_pos small]
  have strict : t.numeral.integer? = some n := by
    unfold integer? at hn
    split at hn
    · rename_i plain
      cases hm : t.negative with
      | true =>
        simp only [hm, if_true, Option.some.injEq] at hn
        subst hn
        have nonzero : Decimal.ofDigits t.whole ≠ 0 := fun hz => sign hm (by simp [hz])
        simp [Numeral.integer?, numeral, plain, hm, nonzero, small]
      | false =>
        simp only [hm, Bool.false_eq_true, if_false, Option.some.injEq] at hn
        subst hn
        have fits : Number.isUnsigned (Decimal.ofDigits t.whole) = true := by
          simp only [Number.isSigned, Bool.and_eq_true, decide_eq_true_eq] at small
          simp only [Number.isUnsigned, Bool.and_eq_true, decide_eq_true_eq]
          exact ⟨Int.natCast_nonneg _, Int.le_trans small.2 (by decide)⟩
        simp [Numeral.integer?, numeral, plain, hm, fits]
    · cases hn
  rw [typed, number?, Numeral.number?, strict]

end Spelling

end Typed

end CommandContract.Json
