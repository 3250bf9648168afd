import Mathlib.Data.List.Forall2
import CommandContract.Json.Fields
import CommandContract.Proofs.Members

set_option autoImplicit false

/-!
# Fields that are written and read again

`Rereads` says of the reader and the writer of one field that what was read is read again from its
written form. It holds of a list and of members if it holds of what stands in them, and a record is
read again if its fields are. Members that are no fields stand behind the fields, in their order:
`KeepsUnknown`.
-/
namespace CommandContract

theorem Value.unsigned?_eq_some_iff {v : Value} {n : Nat} :
    v.unsigned? = some n ↔ v = .ofNat n ∧ Number.isUnsigned n = true := by
  constructor
  · intro h
    unfold unsigned? at h
    split at h
    · rename_i m
      split at h
      · rename_i fits
        cases h
        have whole : 0 ≤ m := by
          simp only [Number.isUnsigned, Bool.and_eq_true, decide_eq_true_eq] at fits
          exact fits.1
        rw [ofNat, int, Int.toNat_of_nonneg whole]
        exact ⟨rfl, fits⟩
      · cases h
    · cases h
  · rintro ⟨rfl, fits⟩
    simp [ofNat, int, unsigned?, fits]

end CommandContract

namespace CommandContract.Fields

variable {α : Type} {key : String} {read : Value → Option α} {write : α → Value}
  {names : List String} {ms ns declared : Members Value}

/-! ## Written fields -/

@[simp] theorem get?_present (key name : String) (write : α → Value) (a : Option α) :
    Members.get? key (present name write a) = if name = key then a.map write else none := by
  cases a <;> simp [present, Members.get?]

@[simp] theorem get?_nonEmpty (key name : String) (items : List Value) :
    Members.get? key (nonEmpty name items) =
      if name = key ∧ items ≠ [] then some (.array items) else none := by
  cases items <;> simp [nonEmpty, Members.get?]

theorem optional_of_get? {a : Option α}
    (h : Members.get? key ms = a.map write) (written : ∀ b, write b ≠ .null)
    (back : ∀ b, a = some b → read (write b) = some b) : optional key read ms = some a := by
  unfold optional
  rw [h]
  cases a with
  | none => rfl
  | some b =>
    have hb := back b rfl
    have hw := written b
    rw [Option.map_some]
    split
    · rename_i he
      cases he
    · rename_i he
      exact absurd (Option.some.inj he) hw
    · rename_i v _ he
      rw [← Option.some.inj he, hb]
      rfl

theorem withDefault_put {other : String} (h : other ≠ key) (default : α)
    (read : Value → Option α) (v : Value) (ms : Members Value) :
    withDefault other default read (Members.put key v ms) = withDefault other default read ms := by
  rw [withDefault, withDefault, Members.get?_put_of_ne h]

theorem optional_put {other : String} (h : other ≠ key) (read : Value → Option α) (v : Value)
    (ms : Members Value) : optional other read (Members.put key v ms) = optional other read ms := by
  rw [optional, optional, Members.get?_put_of_ne h]

/-! ## Reading again -/

/-- What was read is read again from its written form, which is never `null`. -/
structure Rereads (read : Value → Option α) (write : α → Value) : Prop where
  again : ∀ v a, read v = some a → read (write a) = some a
  solid : ∀ a, write a ≠ .null

/-- What an optional field holds was read of something other than `null`. -/
theorem exists_of_optional {a : α} (h : optional key read ms = some (some a)) :
    ∃ v, v ≠ .null ∧ read v = some a := by
  unfold optional at h
  split at h
  · cases h
  · cases h
  · rename_i v hn _
    obtain ⟨b, hb, he⟩ := Option.map_eq_some_iff.mp h
    cases he
    exact ⟨v, hn, hb⟩

theorem Rereads.optional {a : Option α} (h : Rereads read write)
    (given : Fields.optional key read ms = some a) (written : Members.get? key ns = a.map write) :
    Fields.optional key read ns = some a := by
  refine optional_of_get? written h.solid ?_
  rintro b rfl
  obtain ⟨v, -, hv⟩ := exists_of_optional given
  exact h.again v b hv

theorem optional_any {a : Option Value} (given : optional key some ms = some a)
    (written : Members.get? key ns = a) : optional key some ns = some a := by
  unfold optional
  rw [written]
  cases a with
  | none => rfl
  | some b =>
    obtain ⟨v, hn, hv⟩ := exists_of_optional given
    obtain rfl := Option.some.inj hv
    cases v with
    | null => exact absurd rfl hn
    | _ => rfl

theorem Rereads.withDefault {a default : α} (h : Rereads read write)
    (fallback : read (write default) = some default)
    (given : Fields.withDefault key default read ms = some a)
    (written : Members.get? key ns = some (write a)) :
    Fields.withDefault key default read ns = some a := by
  unfold Fields.withDefault at given ⊢
  rw [written]
  split at given
  · cases given
    exact fallback
  · exact h.again _ a given

/-- A list that is left out when it is empty. -/
theorem Rereads.leftOut {read : Value → Option (List α)} {write : List α → Value} {items : List α}
    (h : Rereads read write) (given : Fields.withDefault key [] read ms = some items)
    (written : Members.get? key ns = if items = [] then none else some (write items)) :
    Fields.withDefault key [] read ns = some items := by
  unfold Fields.withDefault at given ⊢
  rw [written]
  by_cases none : items = []
  · rw [if_pos none, none]
  · rw [if_neg none]
    split at given
    · cases given
      exact absurd rfl none
    · exact h.again _ items given

theorem rereads_string : Rereads Value.string? .string where
  again := by
    intro v s h
    cases v <;> cases h
    rfl
  solid := nofun

theorem rereads_bool : Rereads bool? .bool where
  again := by
    intro v b h
    cases v <;> cases h
    rfl
  solid := nofun

theorem rereads_array : Rereads Value.array? .array where
  again := by
    intro v items h
    cases v <;> cases h
    rfl
  solid := nofun

theorem forall₂_of_mapM {β : Type} {read : β → Option α} {items : List β} {found : List α}
    (h : items.mapM read = some found) : List.Forall₂ (fun b a => read b = some a) items found := by
  induction items generalizing found with
  | nil =>
    cases h
    exact .nil
  | cons b items ih =>
    rw [List.mapM_cons] at h
    obtain ⟨a, ha, h⟩ := Option.bind_eq_some_iff.mp h
    obtain ⟨others, ho, h⟩ := Option.bind_eq_some_iff.mp h
    cases h
    exact .cons ha (ih ho)

theorem mapM_again {β : Type} {read : β → Option α} {write : α → β}
    (again : ∀ b a, read b = some a → read (write a) = some a) {items : List β} {found : List α}
    (h : items.mapM read = some found) : (found.map write).mapM read = some found := by
  have each := forall₂_of_mapM h
  clear h
  induction each with
  | nil => rfl
  | cons first _ ih =>
    rw [List.map_cons, List.mapM_cons, again _ _ first, ih]
    rfl

theorem Rereads.list (h : Rereads read write) :
    Rereads (list? read) fun items => .array (items.map write) where
  again := by
    intro v found hv
    cases v with
    | array items => exact mapM_again h.again hv
    | _ => cases hv
  solid := nofun

theorem Rereads.members (h : Rereads read write) :
    Rereads (members? read) fun ms => .object (ms.map fun (k, a) => (k, write a)) where
  again := by
    intro v found hv
    cases v with
    | object ms =>
      have each : ∀ (m : String × Value) (n : String × α),
          ((read m.2).map fun a => (m.1, a)) = some n →
            ((read (write n.2)).map fun a => (n.1, a)) = some n := by
        intro m n hm
        obtain ⟨a, ha, rfl⟩ := Option.map_eq_some_iff.mp hm
        simp only [h.again m.2 a ha, Option.map_some]
      exact mapM_again each hv
    | _ => cases hv
  solid := nofun

/-- Members that are read stand under the names and in the order in which they were given. -/
theorem forall₂_of_members? {v : Value} {found : Members α} (h : members? read v = some found) :
    ∃ given, v = .object given ∧
      List.Forall₂ (fun m n => n.1 = m.1 ∧ read m.2 = some n.2) given found := by
  cases v with
  | object given =>
    refine ⟨given, rfl, (forall₂_of_mapM h).imp ?_⟩
    rintro m n hm
    obtain ⟨a, ha, rfl⟩ := Option.map_eq_some_iff.mp hm
    exact ⟨rfl, ha⟩
  | _ => cases h

/-! ## Members that are no fields -/

def Declared (names : List String) (ms : Members Value) : Prop := ∀ m ∈ ms, m.1 ∈ names

theorem Declared.append (h : Declared names ms) (others : Declared names ns) :
    Declared names (ms ++ ns) := List.forall_mem_append.mpr ⟨h, others⟩

theorem declared_present (h : key ∈ names) (write : α → Value) (a : Option α) :
    Declared names (present key write a) := by
  cases a with
  | none => exact nofun
  | some a => exact List.forall_mem_singleton.mpr h

theorem declared_nonEmpty (h : key ∈ names) (items : List Value) :
    Declared names (nonEmpty key items) := by
  cases items with
  | nil => exact nofun
  | cons v items => exact List.forall_mem_singleton.mpr h

theorem get?_unknown_of_mem (h : key ∈ names) : Members.get? key (unknown names ms) = none := by
  rw [Members.get?_eq_none_iff]
  intro listed
  obtain ⟨m, hm, rfl⟩ := List.mem_map.mp listed
  have outside := (List.mem_filter.mp hm).2
  simp [h] at outside

theorem get?_unknown_of_not_mem (h : key ∉ names) :
    Members.get? key (unknown names ms) = Members.get? key ms :=
  Members.get?_filter (fun k => !names.contains k) (by simpa using h) ms

theorem get?_declared (h : Declared names declared) (hk : key ∉ names) :
    Members.get? key declared = none := by
  rw [Members.get?_eq_none_iff]
  intro listed
  obtain ⟨m, hm, rfl⟩ := List.mem_map.mp listed
  exact hk (h m hm)

/-- Members behind the fields are not read as fields. -/
theorem get?_append_unknown (h : key ∈ names) :
    Members.get? key (declared ++ unknown names ms) = Members.get? key declared := by
  rw [Members.get?_append, get?_unknown_of_mem h, Option.or_none]

theorem unknown_append_unknown (h : Declared names declared) :
    unknown names (declared ++ unknown names ms) = unknown names ms := by
  have nothing : unknown names declared = [] := by
    refine List.filter_eq_nil_iff.mpr fun m hm => ?_
    simp [h m hm]
  have same : unknown names (unknown names ms) = unknown names ms := by
    unfold unknown
    rw [List.filter_filter]
    simp only [Bool.and_self]
  have split : unknown names (declared ++ unknown names ms) =
      unknown names declared ++ unknown names (unknown names ms) := List.filter_append ..
  rw [split, nothing, same, List.nil_append]

theorem unknown_put (h : names.contains key = true) (v : Value) (ms : Members Value) :
    unknown names (Members.put key v ms) = unknown names ms :=
  Members.filter_put (fun k => !names.contains k) (by rw [h]; rfl) v ms

/-- An object of fields, behind which the members stand that are no fields, in their order. -/
def KeepsUnknown (names : List String) (ms : Members Value) (v : Value) : Prop :=
  ∃ declared, Declared names declared ∧ v = .object (declared ++ unknown names ms)

theorem KeepsUnknown.member? {v : Value} (h : KeepsUnknown names ms v) (hk : key ∉ names) :
    v.member? key = Members.get? key ms := by
  obtain ⟨declared, inside, rfl⟩ := h
  rw [Value.member?, Members.get?_append, get?_declared inside hk, Option.none_or,
    get?_unknown_of_not_mem hk]

end CommandContract.Fields
