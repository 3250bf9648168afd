import CommandContract.Json.Printer
import CommandContract.Json.Reader
import CommandContract.Number.Numeral
import CommandContract.Proofs.Text.Class
import CommandContract.Proofs.Text.Trim
import CommandContract.Text.Blank
import CommandContract.Text.LetterCase

set_option autoImplicit false

/-!
# Texts of numbers

The written form of a number begins with a digit or a minus and has no blank in it. So trimming
leaves it alone, no reader takes it for a word or a container, and a binary number, whose text has a
point or an exponent, never reads as an integer.
-/
namespace CommandContract

/-! ## Characters -/

def isNumeralStart (c : Char) : Bool := c.isDigit || c = '-'

def isNumeralChar (c : Char) : Bool := isNumeralStart c || c = '.' || c = 'e' || c = '+'

/-- A text that could be a numeral. -/
def LooksNumeral (cs : List Char) : Prop :=
  (∃ c rest, cs = c :: rest ∧ isNumeralStart c = true) ∧ ∀ c ∈ cs, isNumeralChar c = true

theorem isNumeralChar_of_isDigit {c : Char} (h : c.isDigit = true) : isNumeralChar c = true := by
  simp [isNumeralChar, isNumeralStart, h]

theorem toNat_of_isDigit {c : Char} (h : c.isDigit = true) : 48 ≤ c.toNat ∧ c.toNat ≤ 57 := by
  simpa [Char.isDigit, UInt32.le_iff_toNat_le] using h

theorem isBlank_of_isNumeralChar {c : Char} (h : isNumeralChar c = true) :
    Text.isBlank c = false := by
  by_cases hd : c.isDigit = true
  · obtain ⟨low, high⟩ := toNat_of_isDigit hd
    simp only [Text.isBlank, Text.inRanges, Text.blankRanges, List.any_cons, List.any_nil,
      Bool.or_false, Bool.or_eq_false_iff, Bool.and_eq_false_iff, decide_eq_false_iff_not]
    omega
  · simp only [isNumeralChar, isNumeralStart, hd, Bool.false_or, Bool.or_eq_true,
      decide_eq_true_eq] at h
    rcases h with ((rfl | rfl) | rfl) | rfl <;> decide

theorem LooksNumeral.append {cs ds : List Char} (h : LooksNumeral cs)
    (hd : ∀ c ∈ ds, isNumeralChar c = true) : LooksNumeral (cs ++ ds) := by
  obtain ⟨⟨c, rest, rfl, start⟩, all⟩ := h
  refine ⟨⟨c, rest ++ ds, rfl, start⟩, ?_⟩
  intro d hm
  exact (List.mem_append.mp hm).elim (all d) (hd d)

theorem LooksNumeral.cons_minus {cs : List Char} (h : LooksNumeral cs) :
    LooksNumeral ('-' :: cs) :=
  ⟨⟨'-', cs, rfl, rfl⟩, List.forall_mem_cons.mpr ⟨rfl, h.2⟩⟩

theorem looksNumeral_of_digits {cs : List Char} (hne : cs ≠ [])
    (h : ∀ c ∈ cs, c.isDigit = true) : LooksNumeral cs := by
  refine ⟨?_, fun c hc => isNumeralChar_of_isDigit (h c hc)⟩
  obtain ⟨c, rest, rfl⟩ := List.exists_cons_of_ne_nil hne
  exact ⟨c, rest, rfl, by simp [isNumeralStart, h c List.mem_cons_self]⟩

theorem looksNumeral_toDigits (n : Nat) : LooksNumeral (Nat.toDigits 10 n) :=
  looksNumeral_of_digits Nat.toDigits_ne_nil fun _ hc =>
    Nat.isDigit_of_mem_toDigits (by decide) (by decide) hc

theorem isNumeralChar_toDigits {n : Nat} {c : Char} (h : c ∈ Nat.toDigits 10 n) :
    isNumeralChar c = true :=
  (looksNumeral_toDigits n).2 c h

/-! ## Layouts -/

theorem Decimal.looksNumeral_sign {d : Decimal} {cs : List Char} (h : LooksNumeral cs) :
    LooksNumeral (d.sign ++ cs) := by
  unfold Decimal.sign
  split
  · exact h.cons_minus
  · exact h

theorem Decimal.looksNumeral_positional (d : Decimal) : LooksNumeral (d.positional true) := by
  have zeros : ∀ (n : Nat) (c : Char), c ∈ List.replicate n '0' → isNumeralChar c = true := by
    intro n c hc
    rw [(List.mem_replicate.mp hc).2]
    rfl
  refine looksNumeral_sign ?_
  split
  · refine ((looksNumeral_toDigits _).append (zeros _)).append ?_
    simp [isNumeralChar, isNumeralStart]
  · dsimp only
    split
    · rename_i short
      have hne : (Nat.toDigits 10 d.digits).take
          ((Nat.toDigits 10 d.digits).length - (-d.exponent).toNat) ≠ [] := by
        intro hnil
        have hl := congrArg List.length hnil
        rw [List.length_take, List.length_nil] at hl
        omega
      refine (looksNumeral_of_digits hne ?_).append (List.forall_mem_cons.mpr ⟨rfl, ?_⟩)
      · intro c hc
        exact Nat.isDigit_of_mem_toDigits (by decide) (by decide) (List.mem_of_mem_take hc)
      · intro c hc
        exact isNumeralChar_toDigits (List.mem_of_mem_drop hc)
    · have point : LooksNumeral ['0', '.'] :=
        ⟨⟨'0', ['.'], rfl, rfl⟩, by simp [isNumeralChar, isNumeralStart]⟩
      refine point.append fun c hc => ?_
      exact (List.mem_append.mp hc).elim (zeros _ c) isNumeralChar_toDigits

theorem Decimal.looksNumeral_scientific (d : Decimal) : LooksNumeral d.scientific := by
  have mark : ∀ e : Int, ∀ c ∈ (if e < 0 then ['e', '-'] else ['e', '+']),
      isNumeralChar c = true := by
    intro e
    split <;> simp [isNumeralChar, isNumeralStart]
  have whole : ∀ mantissa : List Char, LooksNumeral mantissa →
      LooksNumeral (d.sign ++ mantissa ++ (if d.leading < 0 then ['e', '-'] else ['e', '+']) ++
        Nat.toDigits 10 d.leading.natAbs) := by
    intro mantissa h
    rw [List.append_assoc, List.append_assoc]
    refine looksNumeral_sign (h.append fun c hc => ?_)
    exact (List.mem_append.mp hc).elim (mark _ c) isNumeralChar_toDigits
  have digits := looksNumeral_toDigits d.digits
  unfold Decimal.scientific
  cases hd : Nat.toDigits 10 d.digits with
  | nil => exact absurd hd Nat.toDigits_ne_nil
  | cons c cs =>
    rw [hd] at digits
    obtain ⟨⟨_, _, he, start⟩, all⟩ := digits
    cases he
    cases cs with
    | nil => exact whole [c] ⟨⟨c, [], rfl, start⟩, all⟩
    | cons c' cs =>
      rw [List.forall_mem_cons] at all
      exact whole (c :: '.' :: c' :: cs) ⟨⟨c, _, rfl, start⟩,
        List.forall_mem_cons.mpr ⟨all.1, List.forall_mem_cons.mpr ⟨rfl, all.2⟩⟩⟩

/-- A written binary number has a point or an exponent. -/
theorem Binary64.mark_mem_text (x : Binary64) : '.' ∈ x.text ∨ 'e' ∈ x.text := by
  unfold Binary64.text
  dsimp only
  split
  · left
    unfold Decimal.positional
    dsimp only
    split
    · simp
    · split <;> simp
  · right
    have mark : ∀ e : Int, 'e' ∈ (if e < 0 then ['e', '-'] else ['e', '+']) := by
      intro e
      split <;> simp
    unfold Decimal.scientific
    simp only [List.mem_append]
    exact .inl (.inr (mark _))

theorem Number.looksNumeral_text (n : Number) : LooksNumeral n.text := by
  cases n with
  | int n =>
    rw [Number.text]
    split
    · exact (looksNumeral_toDigits _).cons_minus
    · exact looksNumeral_toDigits _
  | float x =>
    rw [Number.text, Binary64.text]
    split
    · exact Decimal.looksNumeral_positional _
    · exact Decimal.looksNumeral_scientific _

/-! ## Reading them -/

section Reading

variable {cs : List Char}

theorem LooksNumeral.tight (h : LooksNumeral cs) : Text.Tight cs := by
  obtain ⟨⟨c, rest, rfl, -⟩, all⟩ := h
  exact Text.tight_of_all (List.cons_ne_nil c rest) fun c hc => isBlank_of_isNumeralChar (all c hc)

theorem LooksNumeral.trim (h : LooksNumeral cs) : Text.trim cs = cs := Text.trim_of_tight h.tight

theorem LooksNumeral.trimBlank (h : LooksNumeral cs) :
    (String.ofList cs).trimBlank = String.ofList cs := by
  rw [String.trimBlank, String.toList_ofList, h.trim]

theorem LooksNumeral.isBlankText (h : LooksNumeral cs) :
    (String.ofList cs).isBlankText = false := by
  obtain ⟨⟨c, rest, rfl, _⟩, all⟩ := h
  simp [String.isBlankText, isBlank_of_isNumeralChar (all c List.mem_cons_self)]

/-- A word that begins with a letter is no numeral, in whatever case it is written. -/
theorem LooksNumeral.sameLetters {word : String} (h : LooksNumeral cs)
    (start : ∀ c, isNumeralStart c = true → (word.toList.map Char.toLower).head? ≠ some c) :
    Text.sameLetters (String.ofList cs) word = false := by
  obtain ⟨⟨c, rest, rfl, hc⟩, _⟩ := h
  have lower : c.toLower = c := by
    simp only [isNumeralStart, Bool.or_eq_true, decide_eq_true_eq] at hc
    rcases hc with hd | rfl
    · obtain ⟨low, high⟩ := toNat_of_isDigit hd
      exact Text.toLower_of_not_capital (.inl (by omega))
    · rfl
  rw [Text.sameLetters, beq_eq_false_iff_ne]
  intro he
  rw [String.toList_ofList, List.map_cons, lower] at he
  exact start c hc (by rw [← he]; rfl)

theorem ne_of_isNumeralStart {c d : Char} (hc : isNumeralStart c = true)
    (hd : isNumeralStart d = false) : c ≠ d := by
  rintro rfl
  rw [hd] at hc
  cases hc

theorem Json.readValue_of_isNumeralStart {c : Char} (hc : isNumeralStart c = true)
    (fuel depth : Nat) (rest : List Char) :
    Json.readValue (fuel + 1) depth (c :: rest) =
      (Json.readNumber (c :: rest)).map fun (n, rest) => (.number n, rest) := by
  -- none of the other forms of a value begins like a numeral
  rw [Json.readValue] <;>
    exact fun _ he => absurd (List.cons.inj he).1 (ne_of_isNumeralStart hc rfl)

/-- The strict reader takes such a text for a number or for nothing. -/
theorem LooksNumeral.ofJson? {v : Value} (h : LooksNumeral cs)
    (hv : Value.ofJson? (String.ofList cs) = some v) : ∃ n, v = .number n := by
  obtain ⟨⟨c, rest, rfl, hc⟩, _⟩ := h
  have space : Json.skipSpace (c :: rest) = c :: rest := by
    refine List.dropWhile_cons_of_neg ?_
    have ne : ∀ d, isNumeralStart d = false → c ≠ d := fun _ => ne_of_isNumeralStart hc
    simp [Json.isSpace, ne ' ' rfl, ne '\n' rfl, ne '\r' rfl, ne '\t' rfl]
  rw [Value.ofJson?, String.toList_ofList, Json.read, Json.readWithin, space, Json.steps,
    Json.readValue_of_isNumeralStart hc] at hv
  cases hn : Json.readNumber (c :: rest) with
  | none => simp [hn] at hv
  | some found =>
    simp only [hn, Option.map_some] at hv
    split at hv
    · exact ⟨found.1, (Option.some.inj hv).symm⟩
    · cases hv

/-- A text with a character that is neither digit nor sign spells no integer. -/
theorem Decimal.integer?_of_mem {c : Char} (hc : c ∈ cs) (digit : c.isDigit = false)
    (minus : c ≠ '-') (plus : c ≠ '+') : Decimal.integer? cs = none := by
  have spoiled : ∀ body : List Char, c ∈ body →
      (body.isEmpty || !body.all Char.isDigit) = true := by
    intro body hb
    have hall : body.all Char.isDigit = false := by
      rw [List.all_eq_false]
      exact ⟨c, hb, by simp [digit]⟩
    simp [hall]
  unfold Decimal.integer?
  split
  rename_i negative body he
  split at he <;> cases he
  · exact if_pos (spoiled _ ((List.mem_cons.mp hc).resolve_left minus))
  · exact if_pos (spoiled _ ((List.mem_cons.mp hc).resolve_left plus))
  · exact if_pos (spoiled _ hc)

theorem Binary64.integer?_text (x : Binary64) : Decimal.integer? x.text = none := by
  rcases x.mark_mem_text with h | h
  · exact Decimal.integer?_of_mem h rfl (by decide) (by decide)
  · exact Decimal.integer?_of_mem h rfl (by decide) (by decide)

end Reading

end CommandContract
