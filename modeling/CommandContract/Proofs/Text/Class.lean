import Mathlib
import CommandContract.Text.Blank
import CommandContract.Text.Letter

set_option autoImplicit false

/-!
# Classes of characters

Which classes of characters contain each other and which have nothing in common. A class is a table
of ranges, so both are facts about the ends of ranges.
-/
namespace CommandContract.Text

theorem not_mem_of_any {ofClass : Char → Bool} {cs : List Char} (none : cs.any ofClass = false)
    {c : Char} (h : ofClass c = true) : c ∉ cs := by
  intro hm
  exact absurd h (List.any_eq_false.mp none c hm)

/-- Only capitals have a small letter. -/
theorem toLower_of_not_capital {c : Char} (h : c.toNat < 65 ∨ 90 < c.toNat) : c.toLower = c := by
  refine dif_neg ?_
  rintro ⟨first, last⟩
  have low : 65 ≤ c.toNat := UInt32.le_iff_toNat_le.mp first
  have high : c.toNat ≤ 90 := UInt32.le_iff_toNat_le.mp last
  omega

/-- No range of the one table meets a range of the other. -/
def rangesApart (as bs : List (Nat × Nat)) : Bool :=
  as.all fun a => bs.all fun b => a.2 < b.1 || b.2 < a.1

theorem inRanges_of_apart {as bs : List (Nat × Nat)} (h : rangesApart as bs = true) {n : Nat}
    (ha : inRanges as n = true) : inRanges bs n = false := by
  simp only [inRanges, List.any_eq_true, Bool.and_eq_true, decide_eq_true_eq] at ha
  obtain ⟨a, hm, low, high⟩ := ha
  simp only [inRanges, List.any_eq_false, Bool.and_eq_true, decide_eq_true_eq]
  rintro b hb ⟨below, above⟩
  have apart := List.all_eq_true.mp (List.all_eq_true.mp h a hm) b hb
  simp only [Bool.or_eq_true, decide_eq_true_eq] at apart
  omega

theorem blankRanges_apart : rangesApart blankRanges alphabeticRanges = true := by
  decide +kernel

theorem toNat_of_isAlpha {c : Char} (h : c.isAlpha = true) :
    65 ≤ c.toNat ∧ c.toNat ≤ 90 ∨ 97 ≤ c.toNat ∧ c.toNat ≤ 122 := by
  simpa [Char.isAlpha, Char.isUpper, Char.isLower, UInt32.le_iff_toNat_le] using h

theorem isAlphabetic_of_isBlank {c : Char} (h : isBlank c = true) : isAlphabetic c = false := by
  unfold isAlphabetic
  split
  · rw [← Bool.not_eq_true]
    intro letter
    have code := toNat_of_isAlpha letter
    simp only [isBlank, inRanges, blankRanges, List.any_cons, List.any_nil, Bool.or_false,
      Bool.or_eq_true, Bool.and_eq_true, decide_eq_true_eq] at h
    omega
  · exact inRanges_of_apart blankRanges_apart h

theorem isNumeric_of_isBlank {c : Char} (h : isBlank c = true) : isNumeric c = false := by
  unfold isNumeric
  split
  · rw [← Bool.not_eq_true]
    intro digit
    have low : 48 ≤ c.toNat := by
      simpa [Char.isDigit, UInt32.le_iff_toNat_le] using (Bool.and_eq_true_iff.mp digit).1
    have high : c.toNat ≤ 57 := by
      simpa [Char.isDigit, UInt32.le_iff_toNat_le] using (Bool.and_eq_true_iff.mp digit).2
    simp only [isBlank, inRanges, blankRanges, List.any_cons, List.any_nil, Bool.or_false,
      Bool.or_eq_true, Bool.and_eq_true, decide_eq_true_eq] at h
    omega
  · exact inRanges_of_apart (show rangesApart blankRanges numericRanges = true by decide +kernel) h

theorem toLower_of_isBlank {c : Char} (h : isBlank c = true) : c.toLower = c := by
  refine toLower_of_not_capital ?_
  simp only [isBlank, inRanges, blankRanges, List.any_cons, List.any_nil, Bool.or_false,
    Bool.or_eq_true, Bool.and_eq_true, decide_eq_true_eq] at h
  omega

theorem isBlank_of_isAlphanumeric {c : Char} (h : isAlphanumeric c = true) : isBlank c = false := by
  rw [← Bool.not_eq_true]
  intro blank
  rw [isAlphanumeric, isAlphabetic_of_isBlank blank, isNumeric_of_isBlank blank] at h
  cases h

theorem isAlphanumeric_of_isDigit {c : Char} (h : c.isDigit = true) : isAlphanumeric c = true := by
  have small : c.toNat < 128 := by
    have : c.toNat ≤ 57 := by
      simpa [Char.isDigit, UInt32.le_iff_toNat_le] using (Bool.and_eq_true_iff.mp h).2
    omega
  simp [isAlphanumeric, isNumeric, small, h]

theorem isAlphanumeric_of_isAlpha {c : Char} (h : c.isAlpha = true) : isAlphanumeric c = true := by
  have small : c.toNat < 128 := by
    have := toNat_of_isAlpha h
    omega
  simp [isAlphanumeric, isAlphabetic, small, h]

theorem isBlank_of_isAlphanum {c : Char} (h : c.isAlphanum = true) : isBlank c = false := by
  rcases Bool.or_eq_true_iff.mp h with letter | digit
  · exact isBlank_of_isAlphanumeric (isAlphanumeric_of_isAlpha letter)
  · exact isBlank_of_isAlphanumeric (isAlphanumeric_of_isDigit digit)

end CommandContract.Text
