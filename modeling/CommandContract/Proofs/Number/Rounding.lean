import CommandContract.Proofs.Number.Range

set_option autoImplicit false

/-!
# Rounding keeps the order

The nearest binary number to a quotient stands on the same side of every number of the format as the
quotient does. So a number of the format is its own nearest number, integers up to `2 ^ 53` are kept
as they are, and a greater one can only be moved up to a number of the format, never past it.
-/
namespace CommandContract

namespace Binary64

variable {num den n d c : Nat} {e : Int} {x : Binary64}

theorem one_pos : 0 < one := pow2_pos 1074

/-- The finest steps in a number without its sign. -/
def magnitude (x : Binary64) : Nat := x.mantissa * pow2 (x.exponent - unitExponent).toNat

theorem units_eq (x : Binary64) :
    x.units = if x.negative then -(x.magnitude : Int) else x.magnitude := rfl

/-! ## The scale of a quotient -/

/-- A scaled quotient against a power of two, with any two powers in place of the exponent. -/
theorem scaled_lt_iff {k p q : Nat} (h : (q : Int) = e + k + p) :
    (scaled num den e).1 < (scaled num den e).2 * pow2 k ↔ num * pow2 p < den * pow2 q := by
  have same : e.toNat + k + p = q + (-e).toNat := by omega
  have left : num * pow2 (-e).toNat * pow2 p = num * pow2 p * pow2 (-e).toNat :=
    Nat.mul_right_comm num (pow2 (-e).toNat) (pow2 p)
  have right : den * pow2 e.toNat * pow2 k * pow2 p = den * pow2 q * pow2 (-e).toNat := by
    rw [Nat.mul_assoc den, Nat.mul_assoc den, Nat.mul_assoc den, ← pow2_add, ← pow2_add,
      ← pow2_add, same]
  rw [scaled, ← Nat.mul_lt_mul_right (pow2_pos p), left, right,
    Nat.mul_lt_mul_right (pow2_pos _)]

theorem scaled_lt_mono {k : Nat} {e' : Int}
    (h : (scaled num den e).1 < (scaled num den e).2 * pow2 k)
    (le : e ≤ e') : (scaled num den e').1 < (scaled num den e').2 * pow2 k := by
  have first : ((e + k + e.natAbs).toNat : Int) = e + k + e.natAbs := by omega
  have second : ((e' + k + e.natAbs).toNat : Int) = e' + k + e.natAbs := by omega
  have powers : (e + k + e.natAbs).toNat ≤ (e' + k + e.natAbs).toNat := by omega
  rw [scaled_lt_iff first] at h
  rw [scaled_lt_iff second]
  exact h.trans_le (Nat.mul_le_mul_left den (pow2_le_pow2 powers))

/-- The first guess is at most one too high, and never too low. -/
theorem scaled_guess (hn : num ≠ 0) (hd : den ≠ 0) :
    (scaled num den ((num.log2 : Int) - den.log2 - 52)).1 <
        (scaled num den ((num.log2 : Int) - den.log2 - 52)).2 * pow2 53 ∧
      ¬ (scaled num den ((num.log2 : Int) - den.log2 - 52 - 1)).1 <
        (scaled num den ((num.log2 : Int) - den.log2 - 52 - 1)).2 * pow2 52 := by
  have numLow : pow2 num.log2 ≤ num := Nat.log2_self_le hn
  have numHigh : num < pow2 (num.log2 + 1) := Nat.lt_log2_self
  have denLow : pow2 den.log2 ≤ den := Nat.log2_self_le hd
  have denHigh : den < pow2 (den.log2 + 1) := Nat.lt_log2_self
  constructor
  · rw [scaled_lt_iff (p := den.log2) (q := num.log2 + 1) (by omega), Nat.mul_comm den]
    exact Nat.mul_lt_mul_of_lt_of_le numHigh denLow (Nat.pos_of_ne_zero hd)
  · rw [scaled_lt_iff (p := den.log2 + 1) (q := num.log2) (by omega), Nat.mul_comm num]
    exact Nat.not_lt.mpr (Nat.mul_le_mul denHigh.le numLow)

/-- At the chosen exponent a quotient has at most 53 bits before the point, and no fewer unless the
exponent is the least one. -/
theorem scaled_exponentFor (hn : num ≠ 0) (hd : den ≠ 0) :
    (scaled num den (exponentFor num den)).1 < (scaled num den (exponentFor num den)).2 * pow2 53 ∧
      (exponentFor num den = unitExponent ∨
        (scaled num den (exponentFor num den)).2 * pow2 52 ≤
          (scaled num den (exponentFor num den)).1) := by
  obtain ⟨high, low⟩ := scaled_guess hn hd
  unfold exponentFor
  dsimp only
  generalize (num.log2 : Int) - den.log2 - 52 = guess at high low ⊢
  split
  · rename_i small
    have lower : (scaled num den (guess - 1)).1 < (scaled num den (guess - 1)).2 * pow2 53 := by
      have first :
          ((guess + 52 + guess.natAbs).toNat : Int) = guess + (52 : Nat) + guess.natAbs := by
        omega
      have second : ((guess + 52 + guess.natAbs).toNat : Int) =
          guess - 1 + (53 : Nat) + guess.natAbs := by omega
      rw [scaled_lt_iff first] at small
      rwa [scaled_lt_iff second]
    refine ⟨scaled_lt_mono lower (le_max_right _ _), ?_⟩
    rcases max_choice unitExponent (guess - 1) with least | own
    · exact .inl least
    · rw [own]
      exact .inr (Nat.not_lt.mp low)
  · rename_i full
    refine ⟨scaled_lt_mono high (le_max_right _ _), ?_⟩
    rcases max_choice unitExponent guess with least | own
    · exact .inl least
    · rw [own]
      exact .inr (Nat.not_lt.mp full)

/-- The scaled quotient is the quotient, counted in steps of the chosen exponent. -/
theorem scaled_cross (le : unitExponent ≤ e) :
    num * one * (scaled num den e).2 =
      (scaled num den e).1 * (den * pow2 (e - unitExponent).toNat) := by
  have same : 1074 + e.toNat = (-e).toNat + (e - unitExponent).toNat := by
    unfold unitExponent at le ⊢
    omega
  have powers : pow2 1074 * pow2 e.toNat = pow2 (-e).toNat * pow2 (e - unitExponent).toNat := by
    rw [← pow2_add, ← pow2_add, same]
  calc num * one * (den * pow2 e.toNat)
      = num * den * (pow2 1074 * pow2 e.toNat) := by rw [one]; ring
    _ = num * den * (pow2 (-e).toNat * pow2 (e - unitExponent).toNat) := by rw [powers]
    _ = num * pow2 (-e).toNat * (den * pow2 (e - unitExponent).toNat) := by ring

/-! ## The nearest number -/

theorem roundQuotient_le_of_le (hd : 0 < d) (h : n ≤ c * d) : roundQuotient n d ≤ c := by
  have lower := (@rounded_roundQuotient n d hd).lower
  by_contra above
  have next : (c + 1) * d = c * d + d := Nat.succ_mul _ _
  have size : (c + 1) * d ≤ roundQuotient n d * d :=
    Nat.mul_le_mul_right d (Nat.not_le.mp above)
  omega

theorem le_roundQuotient_of_le (hd : 0 < d) (h : c * d ≤ n) : c ≤ roundQuotient n d := by
  have upper := (@rounded_roundQuotient n d hd).upper
  by_contra below
  have next : (roundQuotient n d + 1) * d = roundQuotient n d * d + d := Nat.succ_mul _ _
  have size : (roundQuotient n d + 1) * d ≤ c * d :=
    Nat.mul_le_mul_right d (Nat.not_le.mp below)
  omega

/-- A quotient brought to the exponent of its nearest number. -/
structure Scale (num den : Nat) (e : Int) (n d : Nat) : Prop where
  least : unitExponent ≤ e
  positive : 0 < d
  cross : num * one * d = n * (den * pow2 (e - unitExponent).toNat)
  upper : n < d * pow2 53
  full : e = unitExponent ∨ d * pow2 52 ≤ n

/-- The mantissa before a carry. -/
theorem Scale.round_le_full (h : Scale num den e n d) : roundQuotient n d ≤ pow2 53 := by
  refine roundQuotient_le_of_le h.positive ?_
  rw [Nat.mul_comm]
  exact h.upper.le

theorem exists_scale (hn : num ≠ 0) (hd : den ≠ 0) : ∃ e n d, Scale num den e n d ∧
    ∀ negative, (nearest negative num den).mantissa < pow2 53 ∧
      (nearest negative num den).magnitude =
        roundQuotient n d * pow2 (e - unitExponent).toNat := by
  have least : unitExponent ≤ exponentFor num den := le_max_left _ _
  obtain ⟨upper, full⟩ := scaled_exponentFor hn hd
  have positive : 0 < (scaled num den (exponentFor num den)).2 :=
    Nat.mul_pos (Nat.pos_of_ne_zero hd) (pow2_pos _)
  have scale : Scale num den _ _ _ := ⟨least, positive, scaled_cross least, upper, full⟩
  refine ⟨_, _, _, scale, fun negative => ?_⟩
  have carry : pow2 53 = pow2 52 * pow2 1 := pow2_add 52 1
  rw [nearest_eq negative hn]
  split
  · rename_i full
    have next : (exponentFor num den + 1 - unitExponent).toNat =
        1 + (exponentFor num den - unitExponent).toNat := by omega
    refine ⟨Nat.pow_lt_pow_right (by decide) (by decide), ?_⟩
    rw [full, magnitude, next, pow2_add, carry, Nat.mul_assoc]
  · rename_i short
    exact ⟨lt_of_le_of_ne scale.round_le_full short, rfl⟩

theorem nearest_zero (negative : Bool) : nearest negative 0 den = ⟨negative, 0, unitExponent⟩ :=
  if_pos rfl

theorem finite_of_ofRatio? {negative : Bool} (hd : den ≠ 0)
    (h : ofRatio? negative num den = some x) : x.Finite := by
  unfold ofRatio? at h
  dsimp only at h
  split at h
  · rename_i bound
    cases h
    refine ⟨?_, bound⟩
    by_cases hn : num = 0
    · rw [hn, nearest_zero]
      exact pow2_pos 53
    · obtain ⟨_, _, _, _, made⟩ := exists_scale hn hd
      exact (made negative).1
  · cases h

/-- A number of the format is a multiple of the steps at an exponent, or has fewer than 53 bits
there. -/
theorem Finite.multiple_or_lt (h : x.Finite) (k : Nat) :
    (∃ c, x.magnitude = c * pow2 k) ∨ 0 < k ∧ x.magnitude < pow2 52 * pow2 k := by
  rw [magnitude]
  generalize (x.exponent - unitExponent).toNat = t
  rcases Nat.lt_or_ge t k with short | long
  · right
    have mantissa := Nat.mul_lt_mul_of_pos_right h.mantissa (pow2_pos t)
    have carry : pow2 53 * pow2 t = pow2 52 * pow2 (1 + t) := by
      rw [pow2_add 1 t, ← Nat.mul_assoc]
      rfl
    have powers : pow2 (1 + t) ≤ pow2 k := pow2_le_pow2 (by omega)
    rw [carry] at mantissa
    exact ⟨Nat.zero_lt_of_lt short, mantissa.trans_le (Nat.mul_le_mul_left _ powers)⟩
  · left
    refine ⟨x.mantissa * pow2 (t - k), ?_⟩
    rw [Nat.mul_assoc, ← pow2_add, Nat.sub_add_cancel long]

/-- A quotient up to a number of the format is rounded up to it at most. -/
theorem Scale.round_le (h : Scale num den e n d) (hd : 0 < den) (finite : x.Finite)
    (le : num * one ≤ x.magnitude * den) :
    roundQuotient n d * pow2 (e - unitExponent).toNat ≤ x.magnitude := by
  have steps : 0 < den * pow2 (e - unitExponent).toNat := Nat.mul_pos hd (pow2_pos _)
  have scaled : n * (den * pow2 (e - unitExponent).toNat) ≤ x.magnitude * den * d := by
    rw [← h.cross]
    exact Nat.mul_le_mul_right d le
  rcases finite.multiple_or_lt (e - unitExponent).toNat with ⟨c, multiple⟩ | ⟨above, small⟩
  · have rounded : roundQuotient n d ≤ c := by
      refine roundQuotient_le_of_le h.positive (Nat.le_of_mul_le_mul_right ?_ steps)
      calc n * (den * pow2 (e - unitExponent).toNat) ≤ x.magnitude * den * d := scaled
        _ = c * d * (den * pow2 (e - unitExponent).toNat) := by rw [multiple]; ring
    rw [multiple]
    exact Nat.mul_le_mul_right _ rounded
  · -- a quotient with all 53 bits is greater than any number with fewer
    have full : d * pow2 52 ≤ n := h.full.resolve_left (by omega)
    have large : pow2 52 * pow2 (e - unitExponent).toNat * (den * d) ≤ x.magnitude * (den * d) := by
      calc pow2 52 * pow2 (e - unitExponent).toNat * (den * d)
          = d * pow2 52 * (den * pow2 (e - unitExponent).toNat) := by ring
        _ ≤ n * (den * pow2 (e - unitExponent).toNat) := Nat.mul_le_mul_right _ full
        _ ≤ x.magnitude * den * d := scaled
        _ = x.magnitude * (den * d) := Nat.mul_assoc _ _ _
    exact absurd (Nat.le_of_mul_le_mul_right large (Nat.mul_pos hd h.positive))
      (Nat.not_le.mpr small)

/-- A quotient from a number of the format on is rounded down to it at most. -/
theorem Scale.le_round (h : Scale num den e n d) (hd : 0 < den) (finite : x.Finite)
    (le : x.magnitude * den ≤ num * one) :
    x.magnitude ≤ roundQuotient n d * pow2 (e - unitExponent).toNat := by
  have steps : 0 < den * pow2 (e - unitExponent).toNat := Nat.mul_pos hd (pow2_pos _)
  rcases finite.multiple_or_lt (e - unitExponent).toNat with ⟨c, multiple⟩ | ⟨above, small⟩
  · have rounded : c ≤ roundQuotient n d := by
      refine le_roundQuotient_of_le h.positive (Nat.le_of_mul_le_mul_right ?_ steps)
      calc c * d * (den * pow2 (e - unitExponent).toNat) = x.magnitude * den * d := by
            rw [multiple]; ring
        _ ≤ num * one * d := Nat.mul_le_mul_right d le
        _ = n * (den * pow2 (e - unitExponent).toNat) := h.cross
    rw [multiple]
    exact Nat.mul_le_mul_right _ rounded
  · have full : d * pow2 52 ≤ n := h.full.resolve_left (by omega)
    have rounded : pow2 52 ≤ roundQuotient n d :=
      le_roundQuotient_of_le h.positive (by rwa [Nat.mul_comm])
    exact small.le.trans (Nat.mul_le_mul_right _ rounded)

theorem magnitude_nearest_le (negative : Bool) (hd : 0 < den) (finite : x.Finite)
    (le : num * one ≤ x.magnitude * den) : (nearest negative num den).magnitude ≤ x.magnitude := by
  by_cases hn : num = 0
  · rw [hn, nearest_zero, magnitude, Nat.zero_mul]
    exact Nat.zero_le _
  · obtain ⟨_, _, _, scale, made⟩ := exists_scale hn hd.ne'
    rw [(made negative).2]
    exact scale.round_le hd finite le

theorem le_magnitude_nearest (negative : Bool) (hd : 0 < den) (finite : x.Finite)
    (le : x.magnitude * den ≤ num * one) : x.magnitude ≤ (nearest negative num den).magnitude := by
  by_cases hn : num = 0
  · rw [hn, Nat.zero_mul] at le
    have zero : x.magnitude = 0 := by
      have product := Nat.le_zero.mp le
      exact (Nat.mul_eq_zero.mp product).resolve_right hd.ne'
    rw [zero]
    exact Nat.zero_le _
  · obtain ⟨_, _, _, scale, made⟩ := exists_scale hn hd.ne'
    rw [(made negative).2]
    exact scale.le_round hd finite le

/-! ## Integers -/

variable {i : Int}

theorem nearest_negative (negative : Bool) (num den : Nat) :
    (nearest negative num den).negative = negative := by
  unfold nearest
  dsimp only
  split
  · rfl
  · split <;> rfl

/-- An integer and a number of the same sign, by their magnitudes. -/
theorem signed_cases (sign : x.negative = decide (i < 0)) :
    (i * one = (i.natAbs * one : Nat) ∧ x.units = x.magnitude) ∨
      (i * one = -(i.natAbs * one : Nat) ∧ x.units = -(x.magnitude : Int)) := by
  rw [units_eq, sign, Int.natCast_mul]
  rcases Int.lt_or_le i 0 with negative | positive
  · have size : (i.natAbs : Int) = -i := by omega
    right
    rw [if_pos (decide_eq_true negative), size, Int.neg_mul, Int.neg_neg]
    exact ⟨rfl, rfl⟩
  · left
    rw [if_neg (by simpa using positive), Int.natAbs_of_nonneg positive]
    exact ⟨rfl, rfl⟩

theorem units_cases (x : Binary64) : x.units = x.magnitude ∨ x.units = -(x.magnitude : Int) := by
  rw [units_eq]
  split
  · exact .inr rfl
  · exact .inl rfl

/-- The nearest number to an integer is not past any number of the format. -/
theorem ofInt_le (finite : x.Finite) (le : i * one ≤ x.units) : (ofInt i).units ≤ x.units := by
  have above := @magnitude_nearest_le i.natAbs 1 x (decide (i < 0)) Nat.one_pos finite
  have below := @le_magnitude_nearest i.natAbs 1 x (decide (i < 0)) Nat.one_pos finite
  have own := units_cases x
  have rounded := signed_cases (x := ofInt i) (nearest_negative _ _ _)
  rw [Nat.mul_one] at above below
  rw [ofInt] at rounded ⊢
  omega

theorem le_ofInt (finite : x.Finite) (le : x.units ≤ i * one) : x.units ≤ (ofInt i).units := by
  have above := @magnitude_nearest_le i.natAbs 1 x (decide (i < 0)) Nat.one_pos finite
  have below := @le_magnitude_nearest i.natAbs 1 x (decide (i < 0)) Nat.one_pos finite
  have own := units_cases x
  have rounded := signed_cases (x := ofInt i) (nearest_negative _ _ _)
  rw [Nat.mul_one] at above below
  rw [ofInt] at rounded ⊢
  omega

/-- An integer that is a number of the format is its own nearest number. -/
theorem units_ofInt_of_units (finite : x.Finite) (h : x.units = i * one) :
    (ofInt i).units = i * one := by
  have above := ofInt_le finite h.ge
  have below := le_ofInt finite h.le
  omega

/-- Integers of 53 bits, and the next one, are numbers of the format. -/
theorem exists_units (h : i.natAbs ≤ pow2 53) : ∃ x : Binary64, x.Finite ∧ x.units = i * one := by
  have signed : ∀ x : Binary64, x.negative = decide (i < 0) → x.magnitude = i.natAbs * one →
      x.units = i * one := by
    intro x sign size
    have cases := signed_cases sign
    rw [size] at cases
    omega
  rcases Nat.lt_or_eq_of_le h with short | full
  · exact ⟨⟨decide (i < 0), i.natAbs, 0⟩, ⟨short, (by decide : (0 : Int) ≤ 971)⟩, signed _ rfl rfl⟩
  · have carry : pow2 52 * pow2 1075 = pow2 53 * one := by
      rw [one, ← pow2_add, ← pow2_add]
    have fits : pow2 52 < pow2 53 := Nat.pow_lt_pow_right (by decide) (by decide)
    refine ⟨⟨decide (i < 0), pow2 52, 1⟩, ⟨fits, (by decide : (1 : Int) ≤ 971)⟩, signed _ rfl ?_⟩
    rw [full]
    exact carry

theorem units_ofInt_of_small (h : i.natAbs ≤ pow2 53) : (ofInt i).units = i * one := by
  obtain ⟨x, finite, own⟩ := exists_units h
  exact units_ofInt_of_units finite own

/-- No other integer is rounded to one of 53 bits. -/
theorem eq_of_units_ofInt {a : Int} (small : i.natAbs < pow2 53)
    (rounds : (ofInt a).units = (ofInt i).units) : a = i := by
  have positive : (0 : Int) < one := Int.natCast_pos.mpr one_pos
  rw [units_ofInt_of_small small.le] at rounds
  -- the neighbours of the integer are numbers of the format too, and rounding stops at them
  rcases Int.lt_trichotomy a i with below | same | above
  · obtain ⟨x, finite, own⟩ := exists_units (show (i - 1).natAbs ≤ pow2 53 by omega)
    have le := Int.mul_le_mul_of_nonneg_right (Int.le_sub_one_of_lt below) positive.le
    have bound := ofInt_le finite (own.symm ▸ le)
    rw [own, Int.sub_mul] at bound
    omega
  · exact same
  · obtain ⟨x, finite, own⟩ := exists_units (show (i + 1).natAbs ≤ pow2 53 by omega)
    have le := Int.mul_le_mul_of_nonneg_right (Int.add_one_le_of_lt above) positive.le
    have bound := le_ofInt finite (own.symm ▸ le)
    rw [own, Int.add_mul] at bound
    omega

end Binary64

/-- A decimal is rounded to a number of the format. -/
theorem Decimal.finite_of_toBinary? {d : Decimal} {x : Binary64} (h : d.toBinary? = some x) :
    x.Finite := by
  unfold toBinary? at h
  dsimp only at h
  split at h
  · cases h
    exact ⟨pow2_pos 53, (by decide : (-1074 : Int) ≤ 971)⟩
  · split at h
    · cases h
    · exact Binary64.finite_of_ofRatio? (pow10_pos _).ne' h

end CommandContract
