import CommandContract.Proofs.Json.Distinct
import Mathlib.Data.List.Perm.Subperm

set_option autoImplicit false

/-!
# Equality of values

Two objects are equal if they have equally many members and every member of the first is in the
second. If no object has two members of one name, it does not matter which object is the first:
`same_comm`.
-/
namespace CommandContract

theorem Number.same_symm {n m : Number} (h : n.same m = true) : m.same n = true := by
  cases n with
  | int i =>
    cases m with
    | int j => exact beq_iff_eq.mpr (beq_iff_eq.mp h).symm
    | float y => cases h
  | float x =>
    cases m with
    | int j => cases h
    | float y => exact beq_iff_eq.mpr (beq_iff_eq.mp h).symm

namespace Value

variable {a b : Value} {xs ys : List Value} {ms ns : List (String × Value)}

theorem sameMembers_iff : sameMembers ms ns = true ↔
    ∀ m ∈ ms, ∃ w, Members.get? m.1 ns = some w ∧ m.2.same w = true := by
  induction ms with
  | nil => simp [sameMembers]
  | cons m ms ih =>
    obtain ⟨key, v⟩ := m
    rw [sameMembers, Bool.and_eq_true_iff, ih, List.forall_mem_cons]
    refine and_congr_left fun _ => ?_
    cases Members.get? key ns with
    | none => simp
    | some w => simp

theorem sameItems_symm (each : ∀ x ∈ xs, ∀ y ∈ ys, x.same y = true → y.same x = true)
    (h : sameItems xs ys = true) : sameItems ys xs = true := by
  induction xs generalizing ys with
  | nil =>
    cases ys with
    | nil => exact h
    | cons y ys => cases h
  | cons x xs ih =>
    cases ys with
    | nil => cases h
    | cons y ys =>
      obtain ⟨first, others⟩ := Bool.and_eq_true_iff.mp h
      refine Bool.and_eq_true_iff.mpr ⟨each x List.mem_cons_self y List.mem_cons_self first, ?_⟩
      exact ih (fun x hx y hy => each x (List.mem_cons_of_mem _ hx) y (List.mem_cons_of_mem _ hy))
        others

/-- As the names are distinct and equally many, those of the second object are all in the first. -/
theorem sameMembers_symm (once : (Members.keys ms).Nodup) (once' : (Members.keys ns).Nodup)
    (count : ms.length = ns.length)
    (each : ∀ m ∈ ms, ∀ n ∈ ns, m.2.same n.2 = true → n.2.same m.2 = true)
    (h : sameMembers ms ns = true) : sameMembers ns ms = true := by
  rw [sameMembers_iff] at h ⊢
  have names : Members.keys ms ⊆ Members.keys ns := by
    intro key hk
    obtain ⟨m, hm, rfl⟩ := List.mem_map.mp hk
    obtain ⟨w, found, -⟩ := h m hm
    have member := Members.mem_of_get? found
    exact List.mem_map.mpr ⟨_, member, rfl⟩
  have all : (Members.keys ms).Perm (Members.keys ns) := by
    refine (once.subperm names).perm_of_length_le ?_
    rw [Members.keys, Members.keys, List.length_map, List.length_map]
    exact Nat.le_of_eq count.symm
  rintro ⟨key, w⟩ hn
  obtain ⟨⟨key, v⟩, hm, rfl⟩ := List.mem_map.mp (all.mem_iff.mpr (List.mem_map_of_mem hn))
  obtain ⟨w', found, equal⟩ := h _ hm
  cases found.symm.trans ((Members.get?_eq_some_iff once').mpr hn)
  exact ⟨v, (Members.get?_eq_some_iff once).mpr hm, each _ hm _ hn equal⟩

theorem same_symm (ha : a.Distinct) (hb : b.Distinct) (h : a.same b = true) : b.same a = true := by
  induction ha generalizing b with
  | null =>
    cases b with
    | null => rfl
    | _ => cases h
  | bool x =>
    cases b with
    | bool y => exact beq_iff_eq.mpr (beq_iff_eq.mp h).symm
    | _ => cases h
  | number n =>
    cases b with
    | number m => exact Number.same_symm h
    | _ => cases h
  | string s =>
    cases b with
    | string t => exact beq_iff_eq.mpr (beq_iff_eq.mp h).symm
    | _ => cases h
  | array inside ih =>
    cases hb with
    | array inside' => exact sameItems_symm (fun x hx y hy => ih x hx (inside' y hy)) h
    | _ => cases h
  | object once inside ih =>
    cases hb with
    | object once' inside' =>
      obtain ⟨count, members⟩ := Bool.and_eq_true_iff.mp h
      have count := beq_iff_eq.mp count
      exact Bool.and_eq_true_iff.mpr ⟨beq_iff_eq.mpr count.symm, sameMembers_symm once once' count
        (fun m hm n hn => ih m hm (inside' n hn)) members⟩
    | _ => cases h

theorem same_comm (ha : a.Distinct) (hb : b.Distinct) : a.same b = b.same a :=
  Bool.eq_iff_iff.mpr ⟨same_symm ha hb, same_symm hb ha⟩

end Value

end CommandContract
