import CommandContract.Number.Decimal
import Mathlib.Tactic.Ring

set_option autoImplicit false

/-!
# The range of the binary format

A quotient below `Binary64.limit` has a nearest binary number, and so has a decimal below it.
-/
namespace CommandContract

theorem pow2_pos (n : Nat) : 0 < pow2 n := Nat.pow_pos (by decide)

theorem pow2_add (m n : Nat) : pow2 (m + n) = pow2 m * pow2 n := Nat.pow_add 2 m n

theorem pow2_le_pow2 {m n : Nat} (h : m ≤ n) : pow2 m ≤ pow2 n :=
  Nat.pow_le_pow_right (by decide) h

theorem pow10_pos (n : Nat) : 0 < pow10 n := Nat.pow_pos (by decide)

theorem pow10_add (m n : Nat) : pow10 (m + n) = pow10 m * pow10 n := Nat.pow_add 10 m n

theorem pow10_le_pow10 {m n : Nat} (h : m ≤ n) : pow10 m ≤ pow10 n :=
  Nat.pow_le_pow_right (by decide) h

/-! ## Rounding a quotient -/

namespace Binary64

variable {num den n d : Nat}

/-- Halfway between the greatest number and the next power of two. -/
def limit : Nat := (pow2 54 - 1) * pow2 970

theorem limit_pos : 0 < limit := Nat.mul_pos (by decide) (pow2_pos 970)

theorem limit_lt : limit < pow2 1024 := by
  have split : pow2 1024 = pow2 54 * pow2 970 := pow2_add 54 970
  have one := pow2_pos 54
  rw [limit, split]
  exact Nat.mul_lt_mul_of_pos_right (by omega) (pow2_pos 970)

/-- The integer nearest to a quotient, the even one if there are two. -/
structure Rounded (n d c : Nat) : Prop where
  lower : 2 * (c * d) ≤ 2 * n + d
  upper : 2 * n ≤ 2 * (c * d) + d
  tie : 2 * (c * d) = 2 * n + d ∨ 2 * n = 2 * (c * d) + d → c % 2 = 0

theorem rounded_roundQuotient (hd : 0 < d) : Rounded n d (roundQuotient n d) := by
  have division : n / d * d + n % d = n := Nat.div_add_mod' n d
  have remainder := Nat.mod_lt n hd
  have next : (n / d + 1) * d = n / d * d + d := Nat.succ_mul _ _
  unfold roundQuotient
  dsimp only
  split
  · exact ⟨by omega, by omega, by omega⟩
  · split
    · exact ⟨by omega, by omega, by omega⟩
    · rcases Nat.mod_two_eq_zero_or_one (n / d) with even | odd
      · rw [even, Nat.add_zero]
        exact ⟨by omega, by omega, fun _ => even⟩
      · rw [odd]
        exact ⟨by omega, by omega, fun _ => by omega⟩

theorem scaled_natCast (e : Nat) : scaled num den e = (num, den * pow2 e) := by
  have none : pow2 (-(e : Int)).toNat = 1 := congrArg pow2 (Int.toNat_neg_natCast e)
  rw [scaled, none, Nat.mul_one, Int.toNat_natCast]

theorem exponentFor_le (hn : num ≠ 0) (h : num < limit * den) : exponentFor num den ≤ 971 := by
  have small : num < pow2 1024 * den :=
    Nat.lt_of_lt_of_le h (Nat.mul_le_mul_right den (Nat.le_of_lt limit_lt))
  have bits : num.log2 < 1024 + (den.log2 + 1) := by
    rw [Nat.log2_lt hn]
    have size : den < pow2 (den.log2 + 1) := Nat.lt_log2_self
    calc num < pow2 1024 * den := small
      _ ≤ pow2 1024 * pow2 (den.log2 + 1) := Nat.mul_le_mul_left _ (Nat.le_of_lt size)
      _ = pow2 (1024 + (den.log2 + 1)) := (pow2_add _ _).symm
  have guess : (num.log2 : Int) - den.log2 - 52 ≤ 972 := by omega
  unfold exponentFor unitExponent
  dsimp only
  generalize (num.log2 : Int) - den.log2 - 52 = e at guess
  split
  · omega
  · rename_i large
    have below : e ≠ (972 : Nat) := by
      rintro rfl
      apply large
      have split : pow2 1024 = pow2 972 * pow2 52 := pow2_add 972 52
      rw [split, Nat.mul_comm, ← Nat.mul_assoc] at small
      rwa [scaled_natCast]
    omega

theorem nearest_eq (negative : Bool) (hn : num ≠ 0) : nearest negative num den =
    if roundQuotient (scaled num den (exponentFor num den)).1
        (scaled num den (exponentFor num den)).2 = pow2 53 then
      ⟨negative, pow2 52, exponentFor num den + 1⟩
    else
      ⟨negative, roundQuotient (scaled num den (exponentFor num den)).1
        (scaled num den (exponentFor num den)).2, exponentFor num den⟩ := by
  rw [nearest, if_neg hn]

/-- A mantissa of the greatest exponent is not rounded up to the next power of two. -/
theorem roundQuotient_ne (h : num < limit * den) :
    roundQuotient num (den * pow2 971) ≠ pow2 53 := by
  intro full
  have positive : 0 < den := Nat.pos_of_ne_zero fun none => by simp [none] at h
  have rounded := (@rounded_roundQuotient num _ (Nat.mul_pos positive (pow2_pos 971))).lower
  have top : limit * den = (pow2 54 - 1) * (pow2 970 * den) := Nat.mul_assoc _ _ _
  have unit : den * pow2 971 = 2 * (pow2 970 * den) := by
    have double : pow2 971 = pow2 1 * pow2 970 := pow2_add 1 970
    rw [double, Nat.mul_comm, Nat.mul_assoc]
    rfl
  rw [full, unit] at rounded
  rw [top] at h
  have full : pow2 53 = 9007199254740992 := by rfl
  have double : pow2 54 = 18014398509481984 := by rfl
  rw [full] at rounded
  rw [double] at h
  omega

theorem exponent_nearest_le (negative : Bool) (h : num < limit * den) :
    (nearest negative num den).exponent ≤ 971 := by
  by_cases hn : num = 0
  · rw [nearest, if_pos hn]
    exact (by decide : (-1074 : Int) ≤ 971)
  · have bound := exponentFor_le hn h
    rw [nearest_eq negative hn]
    split
    · rename_i full
      have low : exponentFor num den ≠ (971 : Nat) := by
        intro top
        rw [top, scaled_natCast] at full
        exact roundQuotient_ne h full
      dsimp only
      omega
    · exact bound

theorem ofRatio?_of_lt (negative : Bool) (h : num < limit * den) :
    ofRatio? negative num den = some (nearest negative num den) :=
  if_pos (exponent_nearest_le negative h)

/-- Of the format: 53 bits, and not too large. -/
structure Finite (x : Binary64) : Prop where
  mantissa : x.mantissa < pow2 53
  exponent : x.exponent ≤ 971

theorem Finite.lt_limit {x : Binary64} (h : x.Finite) :
    x.mantissa * pow2 x.exponent.toNat < limit * pow2 (-x.exponent).toNat := by
  have full : pow2 53 = 9007199254740992 := by rfl
  have double : pow2 54 = 18014398509481984 := by rfl
  have top : pow2 971 = pow2 1 * pow2 970 := pow2_add 1 970
  have mantissa := h.mantissa
  have powers : x.exponent.toNat ≤ 971 + (-x.exponent).toNat := by
    have exponent := h.exponent
    omega
  rw [full] at mantissa
  have half : x.mantissa * pow2 1 < pow2 54 - 1 := by
    have two : pow2 1 = 2 := rfl
    rw [two, double]
    omega
  calc x.mantissa * pow2 x.exponent.toNat
      ≤ x.mantissa * (pow2 971 * pow2 (-x.exponent).toNat) := by
        rw [← pow2_add]
        exact Nat.mul_le_mul_left _ (pow2_le_pow2 powers)
    _ = x.mantissa * pow2 1 * (pow2 970 * pow2 (-x.exponent).toNat) := by
        rw [top]
        ring
    _ < (pow2 54 - 1) * (pow2 970 * pow2 (-x.exponent).toNat) :=
        Nat.mul_lt_mul_of_pos_right half (Nat.mul_pos (pow2_pos _) (pow2_pos _))
    _ = limit * pow2 (-x.exponent).toNat := (Nat.mul_assoc _ _ _).symm

end Binary64

/-! ## Rounding a decimal -/

namespace Decimal

variable {d : Decimal} {digits : Nat} {exponent : Int}

/-- The magnitude is below the limit of the binary format. -/
def InRange (digits : Nat) (exponent : Int) : Prop :=
  digits * pow10 exponent.toNat < Binary64.limit * pow10 (-exponent).toNat

/-- The same with any two powers in place of the exponent. -/
theorem inRange_iff {p q : Nat} (h : (p : Int) = exponent + q) :
    InRange digits exponent ↔ digits * pow10 p < Binary64.limit * pow10 q := by
  have same : exponent.toNat + q = p + (-exponent).toNat := by omega
  have left : digits * pow10 exponent.toNat * pow10 q =
      digits * pow10 p * pow10 (-exponent).toNat := by
    rw [Nat.mul_assoc, Nat.mul_assoc, ← pow10_add, ← pow10_add, same]
  have right := Nat.mul_right_comm Binary64.limit (pow10 (-exponent).toNat) (pow10 q)
  rw [InRange, ← Nat.mul_lt_mul_right (pow10_pos q), left, right,
    Nat.mul_lt_mul_right (pow10_pos _)]

theorem limit_lt_pow10 : Binary64.limit < pow10 400 :=
  Nat.lt_trans Binary64.limit_lt (by decide +kernel : pow2 1024 < pow10 400)

theorem InRange.size_le (h : InRange digits exponent) (hd : digits ≠ 0) :
    (Nat.toDigits 10 digits).length + exponent ≤ 400 := by
  have powers : 400 + (-exponent).toNat ≤ (400 - exponent).toNat + exponent.toNat := by omega
  have small : digits < pow10 (400 - exponent).toNat := by
    refine Nat.lt_of_mul_lt_mul_right (a := pow10 exponent.toNat) ?_
    calc digits * pow10 exponent.toNat < Binary64.limit * pow10 (-exponent).toNat := h
      _ ≤ pow10 400 * pow10 (-exponent).toNat :=
        Nat.mul_le_mul_right _ (Nat.le_of_lt limit_lt_pow10)
      _ = pow10 (400 + (-exponent).toNat) := (pow10_add _ _).symm
      _ ≤ pow10 ((400 - exponent).toNat + exponent.toNat) := pow10_le_pow10 powers
      _ = pow10 (400 - exponent).toNat * pow10 exponent.toNat := pow10_add _ _
  have positive : 0 < (400 - exponent).toNat := by
    refine Nat.pos_of_ne_zero fun none => ?_
    rw [none] at small
    exact hd (Nat.lt_one_iff.mp small)
  have length := (Nat.length_toDigits_le_iff (by decide) positive).mpr small
  omega

theorem toBinary?_of_inRange (h : InRange d.digits d.exponent) : ∃ x, d.toBinary? = some x := by
  unfold toBinary?
  dsimp only
  split
  · exact ⟨_, rfl⟩
  · rename_i nonzero
    have hd : d.digits ≠ 0 := fun none => nonzero (by simp [none])
    rw [if_neg (Int.not_lt.mpr (h.size_le hd))]
    exact ⟨_, Binary64.ofRatio?_of_lt d.negative h⟩

end Decimal

end CommandContract
