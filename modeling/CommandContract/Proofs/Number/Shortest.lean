import CommandContract.Proofs.Number.Rounding

set_option autoImplicit false

/-!
# The shortest decimal

The decimal printed for a binary number lies in the interval that rounds to the number, or is the
number cut off after 360 places. So it is zero for a zero only, and never beyond the range of the
format.

The nearest number to a decimal of the interval is the number again, so what was printed is read
back: `Decimal.Printed.toBinary?`. Just below a power of two the steps become finer, so there the
quotient is first rounded at the finer exponent and carried over.
-/
namespace CommandContract

namespace Decimal

variable {tie : Tie} {x : Binary64} {a b digits : Nat} {exponent i j : Int}

/-! ## The interval that rounds to a number -/

theorem roundsTo_zero (h : x.mantissa ≠ 0) (exponent : Int) : roundsTo x 0 exponent = false := by
  have below : ∀ low j, 0 < low → compareTenTwo 0 exponent low j = .lt := by
    intro low j hl
    rw [compareTenTwo, Nat.zero_mul, Nat.zero_mul, Nat.compare_eq_lt]
    exact Nat.mul_pos (Nat.mul_pos hl (pow2_pos _)) (pow10_pos _)
  unfold roundsTo
  dsimp only
  rw [below _ _ (by split <;> omega)]
  simp

theorem ne_zero_of_roundsTo (h : roundsTo x digits exponent = true) (hx : x.mantissa ≠ 0) :
    digits ≠ 0 := by
  rintro rfl
  rw [roundsTo_zero hx] at h
  cases h

/-- The upper end of the interval is at most the limit. -/
theorem lt_of_roundsTo (h : roundsTo x digits exponent = true) (mantissa : x.mantissa < pow2 53) :
    digits * pow10 exponent.toNat * pow2 (-(x.exponent - 2)).toNat <
      2 * (pow2 54 - 1) * pow2 (x.exponent - 2).toNat * pow10 (-exponent).toNat := by
  have full : pow2 53 = 9007199254740992 := by rfl
  have double : pow2 54 = 18014398509481984 := by rfl
  rw [full] at mantissa
  rw [double]
  have above := (Bool.and_eq_true_iff.mp h).2
  simp only [compareTenTwo, Bool.or_eq_true, Bool.and_eq_true, beq_iff_eq, Nat.compare_eq_lt,
    Nat.compare_eq_eq] at above
  rcases above with strict | ⟨even, tie⟩
  · refine Nat.lt_of_lt_of_le strict ?_
    exact Nat.mul_le_mul_right _ (Nat.mul_le_mul_right _ (by omega))
  · -- the greatest mantissa is odd, so its interval is open
    rw [tie]
    refine Nat.mul_lt_mul_of_pos_right ?_ (pow10_pos _)
    exact Nat.mul_lt_mul_of_pos_right (by omega) (pow2_pos _)

theorem inRange_of_roundsTo (h : roundsTo x digits exponent = true) (finite : x.Finite) :
    InRange digits exponent := by
  have unit : pow2 970 = pow2 1 * pow2 969 := pow2_add 1 969
  have powers : (x.exponent - 2).toNat ≤ 969 + (-(x.exponent - 2)).toNat := by
    have top := finite.exponent
    omega
  refine Nat.lt_of_mul_lt_mul_right (a := pow2 (-(x.exponent - 2)).toNat) ?_
  calc digits * pow10 exponent.toNat * pow2 (-(x.exponent - 2)).toNat
      < 2 * (pow2 54 - 1) * pow2 (x.exponent - 2).toNat * pow10 (-exponent).toNat :=
        lt_of_roundsTo h finite.mantissa
    _ ≤ 2 * (pow2 54 - 1) * (pow2 969 * pow2 (-(x.exponent - 2)).toNat) *
        pow10 (-exponent).toNat := by
      rw [← pow2_add]
      exact Nat.mul_le_mul_right _ (Nat.mul_le_mul_left _ (pow2_le_pow2 powers))
    _ = Binary64.limit * pow10 (-exponent).toNat * pow2 (-(x.exponent - 2)).toNat := by
      have two : pow2 1 = 2 := rfl
      rw [Binary64.limit, unit, two]
      ring

theorem roundsTo_of_withDigits? {scaledUp length n : Nat}
    (found : withDigits? tie x scaledUp length n = some (digits, exponent)) :
    roundsTo x digits exponent = true := by
  unfold withDigits? at found
  dsimp only at found
  split at found
  · rename_i both
    obtain ⟨low, high⟩ := Bool.and_eq_true_iff.mp both
    split at found
    · cases found
      exact low
    · cases found
      exact high
    · split at found
      · cases found
        exact high
      · cases found
        split
        · exact low
        · exact high
  · split at found
    · rename_i low
      cases found
      exact low
    · split at found
      · rename_i high
        cases found
        exact high
      · cases found

/-! ## Zeros at the end -/

/-- The comparison with any other two pairs of powers. -/
theorem compareTenTwo_eq {p q r s : Nat} (two : (q : Int) = j + p) (ten : (r : Int) = i + s) :
    compareTenTwo a i b j = compare (a * pow10 r * pow2 p) (b * pow2 q * pow10 s) := by
  have tens : i.toNat + s = r + (-i).toNat := by omega
  have twos : j.toNat + p = q + (-j).toNat := by omega
  have left : a * pow10 i.toNat * pow2 (-j).toNat * (pow10 s * pow2 p) =
      a * pow10 r * pow2 p * (pow10 (-i).toNat * pow2 (-j).toNat) := by
    calc a * pow10 i.toNat * pow2 (-j).toNat * (pow10 s * pow2 p)
        = a * (pow10 i.toNat * pow10 s) * pow2 p * pow2 (-j).toNat := by ring
      _ = a * (pow10 r * pow10 (-i).toNat) * pow2 p * pow2 (-j).toNat := by
        rw [← pow10_add, tens, pow10_add]
      _ = a * pow10 r * pow2 p * (pow10 (-i).toNat * pow2 (-j).toNat) := by ring
  have right : b * pow2 j.toNat * pow10 (-i).toNat * (pow10 s * pow2 p) =
      b * pow2 q * pow10 s * (pow10 (-i).toNat * pow2 (-j).toNat) := by
    calc b * pow2 j.toNat * pow10 (-i).toNat * (pow10 s * pow2 p)
        = b * (pow2 j.toNat * pow2 p) * pow10 s * pow10 (-i).toNat := by ring
      _ = b * (pow2 q * pow2 (-j).toNat) * pow10 s * pow10 (-i).toNat := by
        rw [← pow2_add, twos, pow2_add]
      _ = b * pow2 q * pow10 s * (pow10 (-i).toNat * pow2 (-j).toNat) := by ring
  have first : 0 < pow10 s * pow2 p := Nat.mul_pos (pow10_pos _) (pow2_pos _)
  have second : 0 < pow10 (-i).toNat * pow2 (-j).toNat := Nat.mul_pos (pow10_pos _) (pow2_pos _)
  rw [compareTenTwo, ← cmp_eq_compare, ← cmp_eq_compare, ← cmp_mul_pos_right first, left, right,
    cmp_mul_pos_right second]

/-- Zeros behind the digits are one with the exponent. -/
theorem compareTenTwo_zeros (k : Nat) :
    compareTenTwo (a * pow10 k) i b j = compareTenTwo a (i + k) b j := by
  have two : (j.toNat : Int) = j + (-j).toNat := by omega
  have ten : (i.toNat : Int) = i + (-i).toNat := by omega
  have more : ((k + i.toNat : Nat) : Int) = i + k + (-i).toNat := by omega
  rw [compareTenTwo_eq two ten, compareTenTwo_eq two more, pow10_add, Nat.mul_assoc a]

theorem roundsTo_zeros (k : Nat) :
    roundsTo x (digits * pow10 k) exponent = roundsTo x digits (exponent + k) := by
  simp only [roundsTo, compareTenTwo_zeros]

theorem roundsTo_stripZeros (fuel digits : Nat) (exponent : Int) :
    roundsTo x (stripZeros fuel digits exponent).1 (stripZeros fuel digits exponent).2 =
      roundsTo x digits exponent := by
  induction fuel generalizing digits exponent with
  | zero => rfl
  | succ fuel ih =>
    rw [stripZeros]
    split
    · rename_i zero
      have tenfold : digits / 10 * pow10 1 = digits :=
        Nat.div_mul_cancel (Nat.dvd_of_mod_eq_zero zero)
      rw [ih]
      exact (roundsTo_zeros 1).symm.trans (by rw [tenfold])
    · rfl

/-! ## What is printed -/

/-- Where a decimal comes from that is printed for `x`. -/
inductive Printed (x : Binary64) : Nat → Int → Prop
  | zero : x.mantissa = 0 → Printed x 0 0
  | rounds {digits : Nat} {exponent : Int} : x.mantissa ≠ 0 → roundsTo x digits exponent = true →
      Printed x digits exponent
  | cut {digits : Nat} : x.mantissa ≠ 0 → digits * pow2 (-x.exponent).toNat ≤
      x.mantissa * pow2 x.exponent.toNat * pow10 360 → x.mantissa * pow2 x.exponent.toNat *
        pow10 360 < (digits + 1) * pow2 (-x.exponent).toNat → Printed x digits (-360)

theorem exists_printed (tie : Tie) (x : Binary64) : ∃ digits exponent,
    shortest tie x = ⟨x.negative, digits, exponent⟩ ∧ Printed x digits exponent := by
  unfold shortest
  split
  · rename_i zero
    exact ⟨0, 0, rfl, .zero zero⟩
  · rename_i nonzero
    -- the kernel would compute with values that are put in their place
    extract_lets scaledUp length
    split
    · rename_i digits exponent found
      obtain ⟨n, -, found⟩ := List.exists_of_findSome?_eq_some found
      have rounds := roundsTo_of_withDigits? found
      rw [← roundsTo_stripZeros 20] at rounds
      exact ⟨_, _, rfl, .rounds nonzero rounds⟩
    · refine ⟨_, _, rfl, .cut nonzero (Nat.div_mul_le_self _ _) ?_⟩
      rw [Nat.mul_comm (_ + 1)]
      exact Nat.lt_mul_div_succ _ (pow2_pos _)

theorem Printed.exponent_le (h : Printed x digits exponent) (zero : digits = 0) : exponent ≤ 0 := by
  cases h with
  | zero => exact Int.le_refl 0
  | rounds nonzero rounds => exact absurd zero (ne_zero_of_roundsTo rounds nonzero)
  | cut => exact (by decide : (-360 : Int) ≤ 0)

theorem Printed.inRange (h : Printed x digits exponent) (finite : x.Finite) :
    InRange digits exponent := by
  cases h with
  | zero =>
    rw [InRange, Nat.zero_mul]
    exact Nat.mul_pos Binary64.limit_pos (pow10_pos _)
  | rounds _ rounds => exact inRange_of_roundsTo rounds finite
  | cut _ below =>
    have places : ((0 : Nat) : Int) = -360 + (360 : Nat) := rfl
    have one : pow10 0 = 1 := rfl
    rw [inRange_iff places, one, Nat.mul_one]
    refine Nat.lt_of_mul_lt_mul_right (a := pow2 (-x.exponent).toNat) (Nat.lt_of_le_of_lt below ?_)
    rw [Nat.mul_right_comm Binary64.limit]
    exact Nat.mul_lt_mul_of_pos_right finite.lt_limit (pow10_pos _)

end Decimal

namespace Binary64

variable {num den n d c c' : Nat} {e e' : Int} {x : Binary64}

/-- The one form of a number of the format: all 53 bits are used, or the exponent is the least. -/
structure Canonical (x : Binary64) : Prop extends Finite x where
  least : unitExponent ≤ x.exponent
  full : x.exponent = unitExponent ∨ pow2 52 ≤ x.mantissa

instance : DecidablePred Canonical := fun x =>
  decidable_of_iff ((x.mantissa < pow2 53 ∧ x.exponent ≤ 971) ∧ unitExponent ≤ x.exponent ∧
      (x.exponent = unitExponent ∨ pow2 52 ≤ x.mantissa))
    ⟨fun ⟨⟨mantissa, exponent⟩, least, full⟩ => ⟨⟨mantissa, exponent⟩, least, full⟩,
      fun h => ⟨⟨h.mantissa, h.exponent⟩, h.least, h.full⟩⟩

/-! ## The nearest integer -/

/-- Two neighbours are never both even. -/
theorem Rounded.le (hd : 0 < d) (h : Rounded n d c) (h' : Rounded n d c') : c ≤ c' := by
  by_contra above
  have next : (c' + 1) * d = c' * d + d := Nat.succ_mul _ _
  have size : (c' + 1) * d ≤ c * d := Nat.mul_le_mul_right d (Nat.not_le.mp above)
  have low := h.lower
  have high := h'.upper
  -- the quotient lies halfway, and the two are next to each other
  have step : c * d = (c' + 1) * d := by omega
  have neighbour : c = c' + 1 := Nat.eq_of_mul_eq_mul_right hd step
  have even := h.tie (.inl (by omega))
  have even' := h'.tie (.inr (by omega))
  omega

theorem Rounded.roundQuotient_eq (hd : 0 < d) (h : Rounded n d c) : roundQuotient n d = c :=
  Nat.le_antisymm ((rounded_roundQuotient hd).le hd h) (h.le hd (rounded_roundQuotient hd))

/-! ## The exponent of a quotient -/

/-- At a greater exponent there are fewer bits before the point. -/
theorem scaled_lt_of_lt (h : (scaled num den e).1 < (scaled num den e).2 * pow2 53) (lt : e < e') :
    (scaled num den e').1 < (scaled num den e').2 * pow2 52 := by
  have next := scaled_lt_mono h (Int.le_sub_one_of_lt lt)
  have power : ((e' + 52 + e'.natAbs).toNat : Int) = e' + (52 : Nat) + e'.natAbs := by omega
  have same : ((e' + 52 + e'.natAbs).toNat : Int) = e' - 1 + (53 : Nat) + e'.natAbs := by omega
  rw [scaled_lt_iff same] at next
  rwa [scaled_lt_iff power]

theorem scaled_pos (hd : den ≠ 0) : 0 < (scaled num den e).2 :=
  Nat.mul_pos (Nat.pos_of_ne_zero hd) (pow2_pos _)

theorem exponentFor_eq (hn : num ≠ 0) (hd : den ≠ 0) (least : unitExponent ≤ e)
    (upper : (scaled num den e).1 < (scaled num den e).2 * pow2 53)
    (full : e = unitExponent ∨ (scaled num den e).2 * pow2 52 ≤ (scaled num den e).1) :
    exponentFor num den = e := by
  have own : unitExponent ≤ exponentFor num den := le_max_left _ _
  obtain ⟨ownUpper, ownFull⟩ := scaled_exponentFor hn hd
  rcases Int.lt_trichotomy (exponentFor num den) e with below | same | above
  · have small := scaled_lt_of_lt ownUpper below
    exact absurd small (Nat.not_lt.mpr (full.resolve_left (by omega)))
  · exact same
  · have small := scaled_lt_of_lt upper above
    exact absurd small (Nat.not_lt.mpr (ownFull.resolve_left (by omega)))

theorem nearest_full (negative : Bool) (hd : den ≠ 0) :
    unitExponent ≤ (nearest negative num den).exponent ∧
      ((nearest negative num den).exponent = unitExponent ∨
        pow2 52 ≤ (nearest negative num den).mantissa) := by
  by_cases hn : num = 0
  · rw [hn, nearest_zero]
    exact ⟨Int.le_refl _, .inl rfl⟩
  · have least : unitExponent ≤ exponentFor num den := le_max_left _ _
    rw [nearest_eq negative hn]
    split
    · exact ⟨Int.le_add_one least, .inr (Nat.le_refl _)⟩
    · refine ⟨least, (scaled_exponentFor hn hd).2.imp_right fun full => ?_⟩
      rw [Nat.mul_comm] at full
      exact le_roundQuotient_of_le (scaled_pos hd) full

/-- What a quotient is rounded to has the form of the format. -/
theorem canonical_of_ofRatio? {negative : Bool} (hd : den ≠ 0)
    (h : ofRatio? negative num den = some x) : x.Canonical := by
  have finite := finite_of_ofRatio? hd h
  obtain ⟨least, full⟩ := @nearest_full num den negative hd
  unfold ofRatio? at h
  dsimp only at h
  split at h
  · cases h
    exact ⟨finite, least, full⟩
  · cases h

/-- One exponent lower the scaled quotient is twice as large. -/
theorem scaled_pred (num den : Nat) (e : Int) :
    (scaled num den (e - 1)).1 = (scaled num den e).1 ∧
        2 * (scaled num den (e - 1)).2 = (scaled num den e).2 ∨
      (scaled num den (e - 1)).1 = 2 * (scaled num den e).1 ∧
        (scaled num den (e - 1)).2 = (scaled num den e).2 := by
  have double : ∀ k, pow2 (k + 1) = 2 * pow2 k := fun k => Nat.pow_succ'
  unfold scaled
  dsimp only
  rcases Int.lt_or_le 0 e with positive | negative
  · left
    have up : e.toNat = (e - 1).toNat + 1 := by omega
    have down : (-(e - 1)).toNat = (-e).toNat := by omega
    rw [up, down, double, Nat.mul_left_comm]
    exact ⟨rfl, rfl⟩
  · right
    have up : (e - 1).toNat = e.toNat := by omega
    have down : (-(e - 1)).toNat = (-e).toNat + 1 := by omega
    rw [up, down, double, Nat.mul_left_comm]
    exact ⟨rfl, rfl⟩

end Binary64

/-! ## The interval that rounds to a number -/

namespace Decimal

open Binary64 (scaled)

variable {a b digits : Nat} {exponent i j : Int} {x : Binary64}

/-- A decimal against quarters of the steps of an exponent. -/
theorem compareTenTwo_quarters (e : Int) : compareTenTwo a i b (e - 2) =
    compare (4 * (scaled (a * pow10 i.toNat) (pow10 (-i).toNat) e).1)
      (b * (scaled (a * pow10 i.toNat) (pow10 (-i).toNat) e).2) := by
  have two : (e.toNat : Int) = e - 2 + ((-e).toNat + 2 : Nat) := by omega
  have ten : (i.toNat : Int) = i + (-i).toNat := by omega
  have four : pow2 ((-e).toNat + 2) = 4 * pow2 (-e).toNat := by
    rw [Nat.add_comm, pow2_add]
    rfl
  rw [compareTenTwo_eq two ten, four, scaled]
  dsimp only
  rw [Nat.mul_left_comm, Nat.mul_assoc b, Nat.mul_comm (pow2 e.toNat)]

end Decimal

namespace Binary64

variable {num den n d : Nat} {e : Int} {x : Binary64}

/-- Four times the lower end of the interval that rounds to a number, in steps of the number. -/
def lowest (x : Binary64) : Nat :=
  if x.mantissa = pow2 52 ∧ unitExponent < x.exponent then 4 * x.mantissa - 1
  else 4 * x.mantissa - 2

/-- A quotient in steps of a number lies in the interval that rounds to the number. -/
structure Within (x : Binary64) (n d : Nat) : Prop where
  lower : x.lowest * d ≤ 4 * n
  upper : 4 * n ≤ (4 * x.mantissa + 2) * d
  tie : x.lowest * d = 4 * n ∨ 4 * n = (4 * x.mantissa + 2) * d → x.mantissa % 2 = 0

theorem le_lowest (x : Binary64) : 4 * x.mantissa - 2 ≤ x.lowest := by
  unfold lowest
  split <;> omega

theorem Within.rounded (h : Within x n d) (nonzero : x.mantissa ≠ 0) :
    Rounded n d x.mantissa := by
  have low : (4 * x.mantissa - 2) * d ≤ x.lowest * d := Nat.mul_le_mul_right d x.le_lowest
  have half : (4 * x.mantissa - 2) * d = 4 * (x.mantissa * d) - 2 * d := by
    rw [Nat.sub_mul, Nat.mul_assoc]
  have more : (4 * x.mantissa + 2) * d = 4 * (x.mantissa * d) + 2 * d := by
    rw [Nat.add_mul, Nat.mul_assoc]
  have size : d ≤ x.mantissa * d := Nat.le_mul_of_pos_left d (Nat.pos_of_ne_zero nonzero)
  have lower := h.lower
  have upper := h.upper
  exact ⟨by omega, by omega, fun tie => h.tie (by omega)⟩

/-- The end of the interval lies within 53 bits. -/
theorem Within.lt_full (h : Within x n d) (finite : x.Finite) (hd : 0 < d) : n < d * pow2 53 := by
  have fits : 4 * x.mantissa + 2 ≤ 4 * pow2 53 - 2 := by
    have mantissa := finite.mantissa
    omega
  have high := h.upper.trans (Nat.mul_le_mul_right d fits)
  have whole : (4 * pow2 53 - 2) * d = 4 * (d * pow2 53) - 2 * d := by
    rw [Nat.sub_mul, Nat.mul_assoc, Nat.mul_comm (pow2 53)]
  have size : d ≤ d * pow2 53 := Nat.le_mul_of_pos_right d (pow2_pos 53)
  omega

/-- Only the interval of a power of two reaches below 52 bits, by a quarter of a step. -/
theorem Within.narrow (h : Within x n d) (canonical : x.Canonical)
    (above : unitExponent < x.exponent) (short : n < d * pow2 52) :
    x.mantissa = pow2 52 ∧ (4 * pow2 52 - 1) * d ≤ 4 * n := by
  have full : pow2 52 ≤ x.mantissa := canonical.full.resolve_left (by omega)
  have lower := h.lower
  have least : x.mantissa = pow2 52 := by
    by_contra other
    have low : 4 * pow2 52 ≤ x.lowest := le_trans (by omega) x.le_lowest
    have size := Nat.mul_le_mul_right d low
    rw [Nat.mul_assoc, Nat.mul_comm (pow2 52)] at size
    omega
  rw [lowest, if_pos ⟨least, above⟩, least] at lower
  exact ⟨least, lower⟩

/-- At the finer exponent such a quotient has all 53 bits and is rounded to one bit more. -/
theorem exponentFor_of_narrow (hn : num ≠ 0) (hd : den ≠ 0) (above : unitExponent < e)
    (short : (scaled num den e).1 < (scaled num den e).2 * pow2 52)
    (low : (4 * pow2 52 - 1) * (scaled num den e).2 ≤ 4 * (scaled num den e).1) :
    exponentFor num den = e - 1 ∧
      roundQuotient (scaled num den (e - 1)).1 (scaled num den (e - 1)).2 = pow2 53 := by
  have coarse : pow2 52 = 4503599627370496 := by rfl
  have fine : pow2 53 = 9007199254740992 := by rfl
  have finer := scaled_pred num den e
  have positive := @scaled_pos num den (e - 1) hd
  rw [coarse] at short low
  constructor
  · refine exponentFor_eq hn hd (Int.le_sub_one_of_lt above) ?_ (.inr ?_)
    · rw [fine]
      omega
    · rw [coarse]
      omega
  · refine Rounded.roundQuotient_eq positive ?_
    rw [fine]
    exact ⟨by omega, by omega, fun _ => rfl⟩

/-- A quotient in the interval of a number has the number as its nearest. -/
theorem nearest_of_within (canonical : x.Canonical) (nonzero : x.mantissa ≠ 0) (hn : num ≠ 0)
    (hd : den ≠ 0)
    (h : Within x (scaled num den x.exponent).1 (scaled num den x.exponent).2) :
    nearest x.negative num den = x := by
  have positive := @scaled_pos num den x.exponent hd
  by_cases full : x.exponent = unitExponent ∨
      (scaled num den x.exponent).2 * pow2 52 ≤ (scaled num den x.exponent).1
  · have bits := h.lt_full canonical.toFinite positive
    rw [nearest_eq _ hn, exponentFor_eq hn hd canonical.least bits full,
      (h.rounded nonzero).roundQuotient_eq positive, if_neg canonical.mantissa.ne]
  · obtain ⟨unfit, short⟩ := not_or.mp full
    have above : unitExponent < x.exponent := lt_of_le_of_ne canonical.least (Ne.symm unfit)
    have short := Nat.not_le.mp short
    obtain ⟨least, low⟩ := h.narrow canonical above short
    obtain ⟨exponent, carried⟩ := exponentFor_of_narrow hn hd above short low
    rw [nearest_eq _ hn, exponent, if_pos carried, ← least, Int.sub_add_cancel]

end Binary64

/-! ## Reading a decimal of the interval -/

namespace Decimal

open Binary64 (Within scaled)

variable {tie : Tie} {x : Binary64} {digits : Nat} {exponent : Int}

theorem roundsTo_iff : roundsTo x digits exponent = true ↔
    Within x (scaled (digits * pow10 exponent.toNat) (pow10 (-exponent).toNat) x.exponent).1
      (scaled (digits * pow10 exponent.toNat) (pow10 (-exponent).toNat) x.exponent).2 := by
  have low : (if (x.mantissa == pow2 52 && decide (Binary64.unitExponent < x.exponent)) = true then
      4 * x.mantissa - 1 else 4 * x.mantissa - 2) = x.lowest := by
    simp only [Binary64.lowest, Bool.and_eq_true, beq_iff_eq, decide_eq_true_eq]
  unfold roundsTo
  dsimp only
  rw [low, compareTenTwo_quarters, compareTenTwo_quarters]
  simp only [Bool.and_eq_true, Bool.or_eq_true, beq_iff_eq, Nat.compare_eq_gt, Nat.compare_eq_lt,
    Nat.compare_eq_eq]
  constructor
  · rintro ⟨below, above⟩
    exact ⟨by omega, by omega, by omega⟩
  · rintro ⟨lower, upper, even⟩
    exact ⟨by omega, by omega⟩

theorem pow2_le_pow10 : pow2 1076 ≤ pow10 360 := by decide +kernel

/-- The last of 360 places is finer than a quarter of any step of the format. -/
theorem pow2_neg_le (least : Binary64.unitExponent ≤ x.exponent) :
    4 * pow2 (-x.exponent).toNat ≤ pow10 360 := by
  have four : pow2 2 = 4 := rfl
  have steps : 2 + (-x.exponent).toNat ≤ 1076 := by
    unfold Binary64.unitExponent at least
    omega
  rw [← four, ← pow2_add]
  exact (pow2_le_pow2 steps).trans pow2_le_pow10

/-- A decimal of the interval is not so small that it is read as zero. -/
theorem le_size_of_roundsTo (h : roundsTo x digits exponent = true) (hx : x.mantissa ≠ 0)
    (least : Binary64.unitExponent ≤ x.exponent) :
    -400 ≤ ((Nat.toDigits 10 digits).length : Int) + exponent := by
  by_contra small
  have power : exponent.toNat = 0 := by omega
  have places : (Nat.toDigits 10 digits).length + 360 ≤ (-exponent).toNat := by omega
  have lower := (roundsTo_iff.mp h).lower
  have two : 2 ≤ x.lowest := le_trans (by omega) x.le_lowest
  have scaled := (Nat.mul_le_mul_right _ two).trans lower
  rw [Binary64.scaled, power] at scaled
  have size : digits < pow10 (Nat.toDigits 10 digits).length :=
    (Nat.length_toDigits_le_iff (by decide) (List.length_pos_iff.mpr Nat.toDigits_ne_nil)).mp
      (Nat.le_refl _)
  have fine := pow2_neg_le least
  have den : pow10 (-exponent).toNat ≤ pow10 (-exponent).toNat * pow2 x.exponent.toNat :=
    Nat.le_mul_of_pos_right _ (pow2_pos _)
  have bound : digits * (4 * pow2 (-x.exponent).toNat) ≤ digits * pow10 360 :=
    Nat.mul_le_mul_left digits fine
  have above : digits * pow10 360 < pow10 (-exponent).toNat := by
    calc digits * pow10 360 < pow10 (Nat.toDigits 10 digits).length * pow10 360 :=
          Nat.mul_lt_mul_of_pos_right size (pow10_pos _)
      _ = pow10 ((Nat.toDigits 10 digits).length + 360) := (pow10_add _ _).symm
      _ ≤ pow10 (-exponent).toNat := pow10_le_pow10 places
  have one : digits * pow10 0 = digits := Nat.mul_one digits
  rw [one] at scaled
  dsimp only at scaled
  rw [Nat.mul_left_comm] at bound
  omega

/-- What is left when a number is cut off after 360 places. -/
theorem roundsTo_of_cut (least : Binary64.unitExponent ≤ x.exponent) (hx : x.mantissa ≠ 0)
    (below : digits * pow2 (-x.exponent).toNat ≤ x.mantissa * pow2 x.exponent.toNat * pow10 360)
    (above : x.mantissa * pow2 x.exponent.toNat * pow10 360 <
      (digits + 1) * pow2 (-x.exponent).toNat) : roundsTo x digits (-360) = true := by
  have fine := pow2_neg_le least
  have whole : pow10 360 ≤ pow10 360 * pow2 x.exponent.toNat :=
    Nat.le_mul_of_pos_right _ (pow2_pos _)
  have one : digits * pow10 (-360 : Int).toNat = digits := Nat.mul_one digits
  have places : (-(-360 : Int)).toNat = 360 := rfl
  rw [roundsTo_iff, one, places, Binary64.scaled]
  dsimp only
  rw [Nat.mul_assoc, Nat.mul_comm (pow2 x.exponent.toNat)] at below above
  rw [Nat.succ_mul] at above
  generalize pow10 360 * pow2 x.exponent.toNat = d at below above whole ⊢
  have low : x.lowest * d ≤ (4 * x.mantissa - 1) * d :=
    Nat.mul_le_mul_right d (by unfold Binary64.lowest; split <;> omega)
  rw [Nat.sub_mul, Nat.mul_assoc, Nat.one_mul] at low
  have more : (4 * x.mantissa + 2) * d = 4 * (x.mantissa * d) + 2 * d := by
    rw [Nat.add_mul, Nat.mul_assoc]
  have size : d ≤ x.mantissa * d := Nat.le_mul_of_pos_left d (Nat.pos_of_ne_zero hx)
  have positive := pow2_pos (-x.exponent).toNat
  exact ⟨by omega, by omega, by omega⟩

/-- What is printed for a number of the format lies in the interval of the number. -/
theorem Printed.roundsTo (h : Printed x digits exponent) (hx : x.mantissa ≠ 0)
    (least : Binary64.unitExponent ≤ x.exponent) : roundsTo x digits exponent = true := by
  cases h with
  | zero none => exact absurd none hx
  | rounds _ rounds => exact rounds
  | cut _ below above => exact roundsTo_of_cut least hx below above

/-- A decimal of the interval is read as the number. -/
theorem toBinary?_of_roundsTo (canonical : x.Canonical) (hx : x.mantissa ≠ 0)
    (h : roundsTo x digits exponent = true) :
    toBinary? ⟨x.negative, digits, exponent⟩ = some x := by
  have nonzero : digits ≠ 0 := ne_zero_of_roundsTo h hx
  have small := le_size_of_roundsTo h hx canonical.least
  have large := (inRange_of_roundsTo h canonical.toFinite).size_le nonzero
  have num : digits * pow10 exponent.toNat ≠ 0 := Nat.mul_ne_zero nonzero (pow10_pos _).ne'
  have nearest := Binary64.nearest_of_within canonical hx num (pow10_pos _).ne' (roundsTo_iff.mp h)
  unfold toBinary?
  dsimp only
  rw [decide_eq_false nonzero, decide_eq_false (Int.not_lt.mpr small), if_neg (by decide),
    if_neg (Int.not_lt.mpr large), Binary64.ofRatio?, nearest, if_pos canonical.exponent]

theorem canonical_of_toBinary? {d : Decimal} (h : d.toBinary? = some x) : x.Canonical := by
  unfold toBinary? at h
  dsimp only at h
  split at h
  · cases h
    exact ⟨⟨pow2_pos 53, (by decide : (-1074 : Int) ≤ 971)⟩, Int.le_refl _, .inl rfl⟩
  · split at h
    · cases h
    · exact Binary64.canonical_of_ofRatio? (pow10_pos _).ne' h

/-- What is printed for a number is read as the number, also with zeros behind the digits. -/
theorem Printed.toBinary?_zeros (h : Printed x digits exponent) (canonical : x.Canonical) {k : Nat}
    {e : Int} (he : e + k = exponent) :
    toBinary? ⟨x.negative, digits * pow10 k, e⟩ = some x := by
  by_cases hx : x.mantissa = 0
  · have none : digits = 0 := by
      cases h with
      | zero => rfl
      | rounds nonzero => exact absurd hx nonzero
      | cut nonzero => exact absurd hx nonzero
    have small : ¬ pow2 52 ≤ x.mantissa := by
      rw [hx]
      exact Nat.not_le.mpr (pow2_pos 52)
    rw [none, Nat.zero_mul]
    refine congrArg some ?_
    rw [← canonical.full.resolve_right small, ← hx]
  · refine toBinary?_of_roundsTo canonical hx ?_
    rw [roundsTo_zeros, he]
    exact h.roundsTo hx canonical.least

theorem Printed.toBinary? (h : Printed x digits exponent) (canonical : x.Canonical) :
    toBinary? ⟨x.negative, digits, exponent⟩ = some x := by
  have one : digits * pow10 0 = digits := Nat.mul_one digits
  have read := h.toBinary?_zeros canonical (Int.add_zero exponent)
  rwa [one] at read

end Decimal

end CommandContract
