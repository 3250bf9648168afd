import CommandContract.Condition.Expression
import CommandContract.Proofs.Json.Equality
import Mathlib.Data.String.Basic

set_option autoImplicit false

/-!
# Comparisons

Equality and order are two functions of two values, each with cases of its own. They agree wherever
values have an order: two strings have one, and so do two quantities if one of the values is a
number. So the six operators are consistent for all values, `comparisons_consistent`.
-/
namespace CommandContract.Condition

variable {a b : Value} {o : Ordering} {s t : String} {x y : Binary64}

/-! ## Order -/

def HasNumber (a b : Value) : Prop := (∃ n, a = .number n) ∨ ∃ n, b = .number n

theorem HasNumber.symm (h : HasNumber a b) : HasNumber b a := Or.symm h

/-- The values that have an order, and the order they have. -/
inductive Ordered : Value → Value → Ordering → Prop
  | strings (s t : String) : Ordered (.string s) (.string t) (compareOfLessAndEq s t)
  | quantities {a b : Value} {x y : Binary64} (number : HasNumber a b)
      (hx : quantity? a = some x) (hy : quantity? b = some y) :
      Ordered a b (compare x.units y.units)

theorem hasNumber_of_quantities (other : ∀ s t, a = .string s → b = .string t → False)
    (hx : quantity? a = some x) (hy : quantity? b = some y) : HasNumber a b := by
  cases a with
  | number n => exact .inl ⟨n, rfl⟩
  | string s =>
    cases b with
    | number n => exact .inr ⟨n, rfl⟩
    | string t => exact (other s t rfl rfl).elim
    | _ => cases hy
  | _ => cases hx

theorem order?_eq_some_iff : order? a b = some o ↔ Ordered a b o := by
  constructor
  · intro h
    unfold order? at h
    split at h
    · cases h
      exact .strings _ _
    · rename_i other
      split at h
      · rename_i hx hy
        cases h
        exact .quantities (hasNumber_of_quantities other hx hy) hx hy
      · cases h
  · rintro (⟨s, t⟩ | ⟨⟨n, rfl⟩ | ⟨n, rfl⟩, hx, hy⟩)
    · rfl
    · simp [order?, hx, hy]
    · simp [order?, hx, hy]

theorem Ordered.swap (h : Ordered a b o) : Ordered b a o.swap := by
  cases h with
  | strings s t =>
    have swapped : compareOfLessAndEq t s = (compareOfLessAndEq s t).swap :=
      compareOfLessAndEq_eq_swap String.le_antisymm String.le_total String.not_le
    exact swapped ▸ .strings t s
  | quantities number hx hy =>
    rw [← Std.OrientedCmp.eq_swap]
    exact .quantities number.symm hy hx

theorem order?_swap (a b : Value) : order? b a = (order? a b).map Ordering.swap := by
  refine Option.ext fun o => ?_
  rw [order?_eq_some_iff, Option.map_eq_some_iff]
  constructor
  · intro h
    exact ⟨o.swap, order?_eq_some_iff.mpr h.swap, o.swap_swap⟩
  · rintro ⟨o, h, rfl⟩
    exact (order?_eq_some_iff.mp h).swap

/-! ## Equality -/

theorem looselyEqual_of_hasNumber (h : HasNumber a b) :
    looselyEqual a b = looselyEqual.sameQuantity a b := by
  rcases h with ⟨n, rfl⟩ | ⟨n, rfl⟩
  · rfl
  · cases a <;> rfl

theorem looselyEqual_of_not (h : ¬ HasNumber a b) : looselyEqual a b = a.same b := by
  unfold looselyEqual
  split
  · exact absurd (.inl ⟨_, rfl⟩) h
  · exact absurd (.inr ⟨_, rfl⟩) h
  · rfl

theorem sameQuantity_comm (a b : Value) :
    looselyEqual.sameQuantity a b = looselyEqual.sameQuantity b a := by
  unfold looselyEqual.sameQuantity
  cases quantity? a with
  | none => cases quantity? b <;> rfl
  | some x =>
    cases quantity? b with
    | none => rfl
    | some y => exact BEq.comm

theorem looselyEqual_comm (ha : a.Distinct) (hb : b.Distinct) :
    looselyEqual a b = looselyEqual b a := by
  by_cases number : HasNumber a b
  · rw [looselyEqual_of_hasNumber number, looselyEqual_of_hasNumber number.symm, sameQuantity_comm]
  · rw [looselyEqual_of_not number, looselyEqual_of_not fun h => number h.symm,
      Value.same_comm ha hb]

/-- Where values have an order, they are equal if neither is in front of the other. -/
theorem Ordered.equal_iff (h : Ordered a b o) : looselyEqual a b = true ↔ o = .eq := by
  cases h with
  | strings s t =>
    have equal : looselyEqual (.string s) (.string t) = (s == t) := rfl
    rw [equal, beq_iff_eq, compareOfLessAndEq_eq_eq String.le_refl String.not_le]
  | quantities number hx hy =>
    simp only [looselyEqual_of_hasNumber number, looselyEqual.sameQuantity, hx, hy, Binary64.same,
      beq_iff_eq, Std.LawfulEqOrd.compare_eq_iff_eq]

/-! ## Operators -/

theorem any_order_iff (p : Ordering → Bool) :
    (order? a b).any p = true ↔ ∃ o, Ordered a b o ∧ p o = true := by
  simp only [Option.any_eq_true, order?_eq_some_iff]

theorem Ordered.unique {o' : Ordering} (h : Ordered a b o) (h' : Ordered a b o') : o = o' :=
  Option.some.inj ((order?_eq_some_iff.mpr h).symm.trans (order?_eq_some_iff.mpr h'))

/-- Equality and the two strict comparisons. -/
def outcomes : List Comparison := [.lt, .eq, .gt]

def outcome : Ordering → Comparison
  | .lt => .lt
  | .eq => .eq
  | .gt => .gt

theorem outcome_mem (o : Ordering) : outcome o ∈ outcomes := by
  cases o <;> decide

/-- Values that have an order have it in one way. -/
theorem Ordered.holds_iff {op : Comparison} (h : Ordered a b o) (hop : op ∈ outcomes) :
    op.holds a b = true ↔ op = outcome o := by
  have order := order?_eq_some_iff.mpr h
  simp only [outcomes, List.mem_cons, List.not_mem_nil, or_false] at hop
  rcases hop with rfl | rfl | rfl
  · rw [Comparison.holds, order]
    cases o <;> decide
  · rw [Comparison.holds, h.equal_iff]
    cases o <;> decide
  · rw [Comparison.holds, order]
    cases o <;> decide

theorem Ordered.existsUnique (h : Ordered a b o) :
    ∃! op, op ∈ outcomes ∧ op.holds a b = true :=
  ⟨outcome o, ⟨outcome_mem o, (h.holds_iff (outcome_mem o)).mpr rfl⟩,
    fun _ hop => (h.holds_iff hop.1).mp hop.2⟩

theorem Ordered.lt_iff (h : Ordered a b o) : Comparison.lt.holds a b = true ↔ o = .lt := by
  rw [h.holds_iff (by decide)]
  cases o <;> decide

/-- Without an order, nothing but equality holds. -/
theorem ordered_of_holds {op : Comparison} (hop : op ∈ outcomes) (h : op.holds a b = true) :
    op = .eq ∨ ∃ o, Ordered a b o := by
  simp only [outcomes, List.mem_cons, List.not_mem_nil, or_false] at hop
  rcases hop with rfl | rfl | rfl
  · obtain ⟨o, ordered, -⟩ := (any_order_iff Ordering.isLT).mp h
    exact .inr ⟨o, ordered⟩
  · exact .inl rfl
  · obtain ⟨o, ordered, -⟩ := (any_order_iff Ordering.isGT).mp h
    exact .inr ⟨o, ordered⟩

theorem at_most_one {op other : Comparison} (hop : op ∈ outcomes) (ho : other ∈ outcomes)
    (h : op.holds a b = true) (h' : other.holds a b = true) : op = other := by
  by_cases ordered : ∃ o, Ordered a b o
  · obtain ⟨o, ordered⟩ := ordered
    rw [(ordered.holds_iff hop).mp h, (ordered.holds_iff ho).mp h']
  · rw [(ordered_of_holds hop h).resolve_right ordered,
      (ordered_of_holds ho h').resolve_right ordered]

theorem le_cases (h : Comparison.le.holds a b = true) :
    Comparison.lt.holds a b = true ∨ Comparison.eq.holds a b = true := by
  obtain ⟨o, ordered, le⟩ := (any_order_iff Ordering.isLE).mp h
  cases o with
  | lt => exact .inl ((ordered.holds_iff (outcome_mem .lt)).mpr rfl)
  | eq => exact .inr ((ordered.holds_iff (outcome_mem .eq)).mpr rfl)
  | gt => cases le

theorem le_antisymm (h : Comparison.le.holds a b = true) (h' : Comparison.le.holds b a = true) :
    Comparison.eq.holds a b = true := by
  obtain ⟨o, ordered, le⟩ := (any_order_iff Ordering.isLE).mp h
  obtain ⟨o', ordered', le'⟩ := (any_order_iff Ordering.isLE).mp h'
  obtain rfl := ordered'.unique ordered.swap
  cases o with
  | lt => cases le'
  | eq => exact (ordered.holds_iff (outcome_mem .eq)).mpr rfl
  | gt => cases le

theorem lt_iff_codes {cs ds : List Char} :
    cs < ds ↔ cs.map Char.toNat < ds.map Char.toNat := by
  induction cs generalizing ds with
  | nil => cases ds <;> simp
  | cons c cs ih =>
    cases ds with
    | nil => simp
    | cons d ds =>
      have codes : c = d ↔ c.toNat = d.toNat := Char.toNat_inj.symm
      rw [List.map_cons, List.map_cons, List.cons_lt_cons_iff, List.cons_lt_cons_iff, ih, codes]
      rfl

/-- How the operators stand to each other on two values. -/
structure Consistent (a b : Value) : Prop where
  lt_gt : Comparison.lt.holds a b = Comparison.gt.holds b a
  le_ge : Comparison.le.holds a b = Comparison.ge.holds b a
  symm : Comparison.eq.holds a b = Comparison.eq.holds b a
  negated : Comparison.ne.holds a b = !Comparison.eq.holds a b
  apart : ∀ op ∈ outcomes, ∀ other ∈ outcomes,
    op.holds a b = true → other.holds a b = true → op = other
  le_cases : Comparison.le.holds a b = true →
    Comparison.lt.holds a b = true ∨ Comparison.eq.holds a b = true
  le_antisymm : Comparison.le.holds a b = true → Comparison.le.holds b a = true →
    Comparison.eq.holds a b = true
  /-- character by character -/
  strings : ∀ s t, a = .string s → b = .string t →
    (∃! op, op ∈ outcomes ∧ op.holds a b = true) ∧
    (Comparison.lt.holds a b = true ↔ s.toList.map Char.toNat < t.toList.map Char.toNat)
  quantities : ∀ x y, HasNumber a b → quantity? a = some x → quantity? b = some y →
    (∃! op, op ∈ outcomes ∧ op.holds a b = true) ∧
    (Comparison.lt.holds a b = true ↔ x.units < y.units)

theorem comparisons_consistent (ha : a.Distinct) (hb : b.Distinct) : Consistent a b := by
  refine ⟨?lt_gt, ?le_ge, looselyEqual_comm ha hb, rfl, ?apart, le_cases, le_antisymm, ?strings,
    ?quantities⟩
  case lt_gt =>
    rw [Comparison.holds, Comparison.holds, order?_swap a b, Option.any_map]
    simp only [Ordering.isGT_swap]
  case le_ge =>
    rw [Comparison.holds, Comparison.holds, order?_swap a b, Option.any_map]
    simp only [Ordering.isGE_swap]
  case apart =>
    intro op hop other ho h h'
    exact at_most_one hop ho h h'
  case strings =>
    rintro s t rfl rfl
    have ordered := Ordered.strings s t
    refine ⟨ordered.existsUnique, ?_⟩
    rw [ordered.lt_iff, compareOfLessAndEq_eq_lt, String.lt_iff_toList_lt, lt_iff_codes]
  case quantities =>
    intro x y number hx hy
    have ordered := Ordered.quantities number hx hy
    refine ⟨ordered.existsUnique, ?_⟩
    rw [ordered.lt_iff, Int.compare_eq_lt]

/-- Objects with the same members in different orders, and a numeral against a number. -/
theorem comparisons_consistent_mixed :
    Consistent (.object [("a", .null), ("b", .bool true)])
      (.object [("b", .bool true), ("a", .null)]) ∧
    Comparison.eq.holds (.object [("a", .null), ("b", .bool true)])
      (.object [("b", .bool true), ("a", .null)]) = true ∧
    Consistent (.string " 3 ") (.number (.int 3)) ∧
    Comparison.eq.holds (.string " 3 ") (.number (.int 3)) = true := by
  refine ⟨comparisons_consistent ?_ ?_, by rfl, comparisons_consistent (.string _) (.number _),
    by decide +kernel⟩
  · exact .object (by decide) (by simp [Value.Distinct.null, Value.Distinct.bool])
  · exact .object (by decide) (by simp [Value.Distinct.null, Value.Distinct.bool])

end CommandContract.Condition
