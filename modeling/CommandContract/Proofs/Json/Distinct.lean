import CommandContract.Json.Reader
import CommandContract.Proofs.Members

set_option autoImplicit false

/-!
# Values whose names are distinct

In a JSON value no object has two members of one name, at any depth. The type of values does not say
so; `Value.Distinct` does, and writing members keeps it.
-/
namespace CommandContract

/-- No object inside has two members of one name. -/
inductive Value.Distinct : Value → Prop
  | null : Distinct .null
  | bool (b : Bool) : Distinct (.bool b)
  | number (n : Number) : Distinct (.number n)
  | string (s : String) : Distinct (.string s)
  | array {items : List Value} (inside : ∀ v ∈ items, Distinct v) : Distinct (.array items)
  | object {ms : List (String × Value)} (once : (Members.keys ms).Nodup)
      (inside : ∀ m ∈ ms, Distinct m.2) : Distinct (.object ms)

namespace Members

variable {α : Type}

/-- A member that is not the one written stood there before. -/
theorem mem_put {key : String} {v : α} {ms : Members α} {m : String × α} (h : m ∈ put key v ms) :
    m = (key, v) ∨ m ∈ ms := by
  induction ms with
  | nil => exact .inl (List.mem_singleton.mp h)
  | cons head rest ih =>
    obtain ⟨k, w⟩ := head
    by_cases hk : k = key
    · rw [put, if_pos hk, List.mem_cons] at h
      exact h.imp (fun he => hk ▸ he) (List.mem_cons_of_mem _)
    · rw [put, if_neg hk, List.mem_cons] at h
      rcases h with rfl | h
      · exact .inr List.mem_cons_self
      · exact (ih h).imp_right (List.mem_cons_of_mem _)

theorem mem_of_mem_ofPairs {pairs : List (String × α)} {m : String × α} (h : m ∈ ofPairs pairs) :
    m ∈ pairs := by
  induction pairs using List.reverseRec with
  | nil => exact h
  | append_singleton pairs pair ih =>
    rw [ofPairs_append_singleton pairs pair.1 pair.2] at h
    rw [List.mem_append, List.mem_singleton]
    exact (mem_put h).symm.imp_left ih

end Members

namespace Value.Distinct

theorem empty : Distinct (.object []) := .object List.nodup_nil nofun

theorem once {ms : Members Value} (h : Distinct (.object ms)) : (Members.keys ms).Nodup := by
  cases h with
  | object once _ => exact once

theorem inside {ms : Members Value} (h : Distinct (.object ms)) {m : String × Value}
    (hm : m ∈ ms) : m.2.Distinct := by
  cases h with
  | object _ inside => exact inside m hm

theorem member {ms : Members Value} {key : String} {v : Value} (h : Distinct (.object ms))
    (hv : Members.get? key ms = some v) : v.Distinct :=
  h.inside (Members.mem_of_get? hv)

theorem put {ms : Members Value} {key : String} {v : Value} (h : Distinct (.object ms))
    (hv : v.Distinct) : Distinct (.object (Members.put key v ms)) := by
  refine .object (Members.nodup_keys_put h.once) fun m hm => ?_
  rcases Members.mem_put hm with rfl | hm
  · exact hv
  · exact h.inside hm

theorem ofPairs {pairs : List (String × Value)} (h : ∀ m ∈ pairs, m.2.Distinct) :
    Distinct (.object (Members.ofPairs pairs)) :=
  .object (Members.nodup_keys_ofPairs pairs) fun m hm => h m (Members.mem_of_mem_ofPairs hm)

end Value.Distinct

namespace Value

/-! ## Looking at the names -/

mutual

def namesDistinct : Value → Bool
  | .array items => itemsDistinct items
  | .object ms => decide (Members.keys ms).Nodup && membersDistinct ms
  | _ => true

def itemsDistinct : List Value → Bool
  | [] => true
  | v :: vs => namesDistinct v && itemsDistinct vs

def membersDistinct : List (String × Value) → Bool
  | [] => true
  | (_, v) :: ms => namesDistinct v && membersDistinct ms

end

mutual

theorem namesDistinct_iff : ∀ v : Value, namesDistinct v = true ↔ v.Distinct
  | .null => iff_of_true rfl .null
  | .bool b => iff_of_true rfl (.bool b)
  | .number n => iff_of_true rfl (.number n)
  | .string s => iff_of_true rfl (.string s)
  | .array items => by
    rw [namesDistinct, itemsDistinct_iff items]
    refine ⟨.array, fun h => ?_⟩
    cases h with
    | array inside => exact inside
  | .object ms => by
    rw [namesDistinct, Bool.and_eq_true, decide_eq_true_iff, membersDistinct_iff ms]
    exact ⟨fun h => .object h.1 h.2, fun h => ⟨h.once, fun _ hm => h.inside hm⟩⟩

theorem itemsDistinct_iff : ∀ items : List Value,
    itemsDistinct items = true ↔ ∀ v ∈ items, v.Distinct
  | [] => iff_of_true rfl (List.forall_mem_nil _)
  | v :: vs => by
    rw [itemsDistinct, Bool.and_eq_true, List.forall_mem_cons, namesDistinct_iff v,
      itemsDistinct_iff vs]

theorem membersDistinct_iff : ∀ ms : List (String × Value),
    membersDistinct ms = true ↔ ∀ m ∈ ms, m.2.Distinct
  | [] => iff_of_true rfl (List.forall_mem_nil _)
  | (_, v) :: ms => by
    rw [membersDistinct, Bool.and_eq_true, List.forall_mem_cons, namesDistinct_iff v,
      membersDistinct_iff ms]

end

instance : DecidablePred Distinct := fun v => decidable_of_iff _ (namesDistinct_iff v)

end Value

end CommandContract
