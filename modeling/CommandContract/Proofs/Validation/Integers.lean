import CommandContract.Proofs.Number.Rounding
import CommandContract.Proofs.Validation.Normal

set_option autoImplicit false

/-!
# Bounds and choices of integers

An integer is rounded to a binary number before it is compared with a bound or with a declared
choice. Rounding never moves it past a number of the format, so nothing is refused that the exact
comparison admits; but an integer beyond a bound, or beside a choice, is let through when it rounds
to it. Below `2 ^ 53` integers are not rounded, and the checks are exact.
-/
namespace CommandContract.Validation

open ParameterType

variable {tree : FileTree} {name : String} {p : ParameterSpec} {t : ParameterType} {v : Value}
  {members : List ParameterType} {i : Int} {x : Binary64}

/-- The integer itself lies within the declared bounds and is one of the declared integers. -/
structure Admits (p : ParameterSpec) (i : Int) : Prop where
  low : ∀ x, p.min = some x → x.units ≤ i * Binary64.one
  high : ∀ x, p.max = some x → i * Binary64.one ≤ x.units
  choice : ∀ ints : List Int, p.allowed = some (ints.map Value.int) → i ∈ ints

/-- What is compared: the number that the integer rounds to. -/
structure AdmitsRounded (p : ParameterSpec) (i : Int) : Prop where
  low : ∀ x, p.min = some x → x.units ≤ (Binary64.ofInt i).units
  high : ∀ x, p.max = some x → (Binary64.ofInt i).units ≤ x.units
  choice : ∀ ints : List Int, p.allowed = some (ints.map Value.int) →
    ∃ a ∈ ints, (Binary64.ofInt a).units = (Binary64.ofInt i).units

/-- The integer is beyond a bound, or none of the declared ones, and rounds to the bound or as one
of them. -/
inductive Blurred (p : ParameterSpec) (i : Int) : Prop
  | low {x : Binary64} (declared : p.min = some x) (beyond : i * Binary64.one < x.units)
      (rounds : (Binary64.ofInt i).units = x.units)
  | high {x : Binary64} (declared : p.max = some x) (beyond : x.units < i * Binary64.one)
      (rounds : (Binary64.ofInt i).units = x.units)
  | choice {ints : List Int} {a : Int} (declared : p.allowed = some (ints.map Value.int))
      (other : i ∉ ints) (listed : a ∈ ints)
      (rounds : (Binary64.ofInt a).units = (Binary64.ofInt i).units)

/-- The bounds are numbers of the format. -/
structure FiniteBounds (p : ParameterSpec) : Prop where
  min : ∀ x, p.min = some x → x.Finite
  max : ∀ x, p.max = some x → x.Finite

theorem int_injective : Function.Injective Value.int :=
  fun _ _ same => Number.int.inj (Value.number.inj same)

/-! ## The checks -/

theorem checkRange_int : checkRange name p (.int i) = .ok () ↔
    (∀ x, p.min = some x → x.units ≤ (Binary64.ofInt i).units) ∧
      ∀ x, p.max = some x → (Binary64.ofInt i).units ≤ x.units := by
  have low : p.min.filter ((Binary64.ofInt i).lt ·) = none ↔
      ∀ x, p.min = some x → x.units ≤ (Binary64.ofInt i).units := by
    simp [Option.filter_eq_none_iff, Binary64.lt]
  have high : p.max.filter (·.lt (Binary64.ofInt i)) = none ↔
      ∀ x, p.max = some x → (Binary64.ofInt i).units ≤ x.units := by
    simp [Option.filter_eq_none_iff, Binary64.lt]
  rw [← low, ← high]
  unfold checkRange Value.int
  dsimp only [Number.toBinary]
  split <;> simp [*]

theorem checkChoice_int {ints : List Int} (declared : p.allowed = some (ints.map Value.int)) :
    checkChoice name p (.int i) = .ok () ↔
      ∃ a ∈ ints, (Binary64.ofInt a).units = (Binary64.ofInt i).units := by
  have same : (ints.map Value.int).any (sameChoice · (.int i)) = true ↔
      ∃ a ∈ ints, (Binary64.ofInt a).units = (Binary64.ofInt i).units := by
    rw [List.any_map, List.any_eq_true]
    exact exists_congr fun a => and_congr_right fun _ => beq_iff_eq
  unfold checkChoice
  rw [declared, ← same]
  dsimp only
  split <;> simp [*]

/-- What an accepted integer has passed. -/
theorem admitsRounded_of_allowed (numeric : t.isNumeric = true)
    (allowed : Allowed name p t (.int i)) : AdmitsRounded p i := by
  obtain ⟨low, high⟩ := checkRange_int.mp (allowed.2 numeric)
  exact ⟨low, high, fun ints declared => (checkChoice_int declared).mp allowed.1⟩

theorem allowed_of_admitsRounded (h : AdmitsRounded p i)
    (integral : ∀ choices, p.allowed = some choices → ∃ ints : List Int, choices = ints.map .int) :
    Allowed name p t (.int i) := by
  refine ⟨?_, fun _ => checkRange_int.mpr ⟨h.low, h.high⟩⟩
  cases declared : p.allowed with
  | none =>
    unfold checkChoice
    rw [declared]
  | some choices =>
    obtain ⟨ints, rfl⟩ := integral choices declared
    exact (checkChoice_int declared).mpr (h.choice ints declared)

/-! ## Rounding -/

/-- Rounding does not move an integer past a bound. -/
theorem Admits.rounded (h : Admits p i) (finite : FiniteBounds p) : AdmitsRounded p i where
  low x declared := Binary64.le_ofInt (finite.min x declared) (h.low x declared)
  high x declared := Binary64.ofInt_le (finite.max x declared) (h.high x declared)
  choice ints declared := ⟨i, h.choice ints declared, rfl⟩

theorem Admits.not_blurred (h : Admits p i) : ¬ Blurred p i := by
  rintro (⟨declared, beyond, -⟩ | ⟨declared, beyond, -⟩ | ⟨declared, other, -, -⟩)
  · have low := h.low _ declared
    omega
  · have high := h.high _ declared
    omega
  · exact other (h.choice _ declared)

theorem AdmitsRounded.admits (h : AdmitsRounded p i) (finite : FiniteBounds p)
    (sharp : ¬ Blurred p i) : Admits p i := by
  refine ⟨fun x declared => ?_, fun x declared => ?_, fun ints declared => ?_⟩
  · by_contra outside
    have beyond : i * Binary64.one < x.units := by omega
    have back := Binary64.ofInt_le (finite.min x declared) beyond.le
    exact sharp (.low declared beyond (Int.le_antisymm back (h.low x declared)))
  · by_contra outside
    have beyond : x.units < i * Binary64.one := by omega
    have back := Binary64.le_ofInt (finite.max x declared) beyond.le
    exact sharp (.high declared beyond (Int.le_antisymm (h.high x declared) back))
  · by_contra other
    obtain ⟨a, listed, rounds⟩ := h.choice ints declared
    exact sharp (.choice declared other listed rounds)

theorem not_blurred_of_small (small : i.natAbs < pow2 53) : ¬ Blurred p i := by
  have exact := Binary64.units_ofInt_of_small small.le
  rintro (⟨-, beyond, rounds⟩ | ⟨-, beyond, rounds⟩ | ⟨-, other, listed, rounds⟩)
  · omega
  · omega
  · exact other (Binary64.eq_of_units_ofInt small rounds ▸ listed)

/-- What an accepted integer is known to be: within the bounds and one of the declared integers,
exactly if it is not taken for a bound or a choice that it rounds to, so always below `2 ^ 53`. The
other way about, nothing that the bounds and choices admit is refused. -/
theorem normalizeValue_integer (tree : FileTree) (name : String) (i : Int)
    (finite : FiniteBounds p) (declared : union p.declaredType = .ok members)
    (chosen : members.find? (·.accepts v) = some t) (numeric : t.isNumeric = true) :
    (normalizeValue tree name p v = .ok (.int i) →
      (Admits p i ↔ ¬ Blurred p i) ∧ (i.natAbs < pow2 53 → Admits p i)) ∧
    (coerceTo tree name p t v = .ok (.int i) → Admits p i →
      (∀ choices, p.allowed = some choices → ∃ ints : List Int, choices = ints.map .int) →
        normalizeValue tree name p v = .ok (.int i)) := by
  constructor
  · intro accepted
    have allowed := ((normalizeValue_of_chosen declared chosen).mp accepted).2
    have rounded := admitsRounded_of_allowed numeric allowed
    exact ⟨⟨Admits.not_blurred, rounded.admits finite⟩,
      fun small => rounded.admits finite (not_blurred_of_small small)⟩
  · intro made admitted integral
    exact (normalizeValue_of_chosen declared chosen).mpr
      ⟨made, allowed_of_admitsRounded (admitted.rounded finite) integral⟩

/-- From one to ten, and even or seven. -/
def dice : ParameterSpec :=
  { ParameterSpec.ofType "integer" with
    allowed := some ([2, 4, 7, 10].map Value.int)
    min := some ⟨false, 1, 0⟩
    max := some ⟨false, 10, 0⟩ }

theorem normalizeValue_integer_dice :
    FiniteBounds dice ∧ normalizeValue ⟨[], []⟩ "n" dice (.string "7") = .ok (.int 7) ∧
      Admits dice 7 ∧ ¬ Blurred dice 7 := by
  have finite : FiniteBounds dice := by
    constructor <;> rintro x declared <;> cases declared <;> exact ⟨by decide, by decide⟩
  have admitted : Admits dice 7 := by
    refine ⟨?_, ?_, ?_⟩
    · rintro x declared
      cases declared
      decide +kernel
    · rintro x declared
      cases declared
      decide +kernel
    · intro ints declared
      rw [← List.map_injective_iff.mpr int_injective (Option.some.inj declared)]
      decide
  have law := normalizeValue_integer (v := .string "7") ⟨[], []⟩ "n" 7 finite rfl rfl rfl
  have accepted := law.2 rfl admitted fun choices declared => ⟨_, (Option.some.inj declared).symm⟩
  exact ⟨finite, accepted, admitted, (law.1 accepted).1.mp admitted⟩

/-- At most `2 ^ 53`. -/
def atMost : ParameterSpec :=
  { ParameterSpec.ofType "integer" with max := some ⟨false, pow2 52, 1⟩ }

/-- Nothing but `2 ^ 53`. -/
def only : ParameterSpec :=
  { ParameterSpec.ofType "number" with allowed := some ([9007199254740992].map Value.int) }

theorem atMost_exceeded :
    normalizeValue ⟨[], []⟩ "n" atMost (.int 9007199254740993) = .ok (.int 9007199254740993) ∧
      ¬ Admits atMost 9007199254740993 ∧
      normalizeValue ⟨[], []⟩ "n" only (.int 9007199254740993) = .ok (.int 9007199254740993) ∧
      ¬ Admits only 9007199254740993 := by
  refine ⟨?_, ?_, ?_, ?_⟩
  · have rounded : AdmitsRounded atMost 9007199254740993 := by
      refine ⟨nofun, ?_, nofun⟩
      rintro x declared
      cases declared
      decide +kernel
    have allowed : Allowed "n" atMost .integer (.int 9007199254740993) :=
      allowed_of_admitsRounded rounded nofun
    have declared : union atMost.declaredType = .ok [.integer] := rfl
    exact (normalizeValue_of_chosen declared rfl).mpr ⟨rfl, allowed⟩
  · intro admitted
    exact absurd (admitted.high _ rfl) (by decide +kernel)
  · have rounded : AdmitsRounded only 9007199254740993 := by
      refine ⟨nofun, nofun, fun ints declared => ?_⟩
      rw [← List.map_injective_iff.mpr int_injective (Option.some.inj declared)]
      exact ⟨_, List.mem_cons_self, by decide +kernel⟩
    have allowed : Allowed "n" only .number (.int 9007199254740993) :=
      allowed_of_admitsRounded rounded fun choices declared =>
        ⟨_, (Option.some.inj declared).symm⟩
    have declared : union only.declaredType = .ok [.number] := rfl
    exact (normalizeValue_of_chosen declared rfl).mpr ⟨rfl, allowed⟩
  · intro admitted
    exact absurd (admitted.choice _ rfl) (by decide)

end CommandContract.Validation
