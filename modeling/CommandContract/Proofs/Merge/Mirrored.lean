import CommandContract.Proofs.Merge.Path

set_option autoImplicit false

/-!
# The two precedences are mirror images

Where no `null` occurs, merging a value into another one that wins, and merging the winner into the
other one, give the same up to the order of members: `Value.merge_mirrored`. A `null` breaks this:
one that comes in does nothing, and one that is there stays.
-/
namespace CommandContract.Value

variable {a b v w : Value} {key : String} {ms ns : Members Value}

/-- No `null` occurs at any depth. -/
inductive NullFree : Value → Prop
  | bool (b : Bool) : NullFree (.bool b)
  | number (n : Number) : NullFree (.number n)
  | string (s : String) : NullFree (.string s)
  | array {items : List Value} (inside : ∀ v ∈ items, NullFree v) : NullFree (.array items)
  | object {ms : List (String × Value)} (inside : ∀ m ∈ ms, NullFree m.2) : NullFree (.object ms)

/-- One value is the other one with the members of its objects in some other order. -/
inductive Reordered : Value → Value → Prop
  | same (v : Value) : Reordered v v
  | object {ms ns : List (String × Value)} (once : (Members.keys ms).Nodup)
      (names : (Members.keys ms).Perm (Members.keys ns))
      (values : ∀ key v w, Members.get? key ms = some v → Members.get? key ns = some w →
        Reordered v w) : Reordered (.object ms) (.object ns)

theorem NullFree.ne_null (h : v.NullFree) : v ≠ null := by
  rintro rfl
  cases h

theorem NullFree.member (h : NullFree (.object ms)) (hv : Members.get? key ms = some v) :
    v.NullFree := by
  cases h with
  | object inside => exact inside _ (Members.mem_of_get? hv)

theorem NullFree.solid (h : NullFree (.object ms)) : ∀ m ∈ ms, m.2 ≠ null := by
  cases h with
  | object inside => exact fun m hm => (inside m hm).ne_null

theorem mergeMember?_none_eq_some {p : Precedence} {y : Option Value}
    (h : mergeMember? p none y = some v) : y = some v :=
  (Option.filter_eq_some_iff.mp h).1

/-- A member that one side only has comes out as it is. -/
theorem reordered_mergeMember? {x y : Option Value}
    (both : ∀ a b, x = some a → y = some b →
      Reordered (merge .keepExisting a b) (merge .takeIncoming b a))
    (hv : mergeMember? .keepExisting x y = some v) (hw : mergeMember? .takeIncoming y x = some w) :
    Reordered v w := by
  cases x with
  | none =>
    cases mergeMember?_none_eq_some hv
    cases hw
    exact .same v
  | some a =>
    cases y with
    | none =>
      cases mergeMember?_none_eq_some hw
      cases hv
      exact .same _
    | some b =>
      cases hv
      cases hw
      exact both a b rfl rfl

/-- Only two objects come out in different orders. -/
theorem merge_mirrored_of_objects (na : a.NullFree) (nb : b.NullFree)
    (objects : ∀ ms ns, a = object ms → b = object ns →
      Reordered (object (mergeMembers .keepExisting ms ns))
        (object (mergeMembers .takeIncoming ns ms))) :
    Reordered (merge .keepExisting a b) (merge .takeIncoming b a) := by
  by_cases leaf : a.isLeaf = true ∨ b.isLeaf = true
  · rw [merge_conflict na.ne_null nb.ne_null leaf, merge_conflict nb.ne_null na.ne_null leaf.symm]
    exact .same a
  · rw [not_or] at leaf
    obtain ⟨ms, rfl⟩ := eq_object_of_not_isLeaf na.ne_null leaf.1
    obtain ⟨ns, rfl⟩ := eq_object_of_not_isLeaf nb.ne_null leaf.2
    rw [merge_object, merge_object]
    exact objects ms ns rfl rfl

theorem merge_mirrored (ha : a.Distinct) (hb : b.Distinct) (na : a.NullFree) (nb : b.NullFree) :
    Reordered (merge .keepExisting a b) (merge .takeIncoming b a) := by
  induction hb generalizing a with
  | @object ns once inside ih =>
    refine merge_mirrored_of_objects na nb ?_
    rintro ms _ rfl ⟨⟩
    have distinct : Distinct (.object ns) := .object once inside
    have onceKept : (Members.keys (mergeMembers .keepExisting ms ns)).Nodup := by
      have merged := distinct_merge (p := .keepExisting) ha distinct
      rw [merge_object] at merged
      exact merged.once
    have onceTaken : (Members.keys (mergeMembers .takeIncoming ns ms)).Nodup := by
      have merged := distinct_merge (p := .takeIncoming) distinct ha
      rw [merge_object] at merged
      exact merged.once
    refine .object onceKept ((List.perm_ext_iff_of_nodup onceKept onceTaken).mpr fun key => ?_)
      fun key v w hv hw => ?_
    · rw [mem_keys_mergeMembers_iff _ once nb.solid, mem_keys_mergeMembers_iff _ ha.once na.solid,
        or_comm]
    · rw [get?_mergeMembers _ _ _ once] at hv
      rw [get?_mergeMembers _ _ _ ha.once] at hw
      refine reordered_mergeMember? (fun a b held given => ?_) hv hw
      exact ih _ (Members.mem_of_get? given) (ha.member held) (na.member held) (nb.member given)
  | array inside => exact merge_mirrored_of_objects na nb nofun
  | _ => exact merge_mirrored_of_objects na nb nofun

/-- What a parent and a child declare of one parameter, without any `null`. -/
def claimed : Value :=
  .object [("type", .string "string"), ("nested", .object [("a", .int 1)]), ("tags", .object [])]

def offered : Value :=
  .object [("tags", .array [.int 3]), ("nested", .object [("b", .int 3), ("a", .int 2)])]

theorem distinct_claimed : claimed.Distinct := by decide

theorem distinct_offered : offered.Distinct := by decide

theorem nullFree_claimed : claimed.NullFree := by
  refine .object ?_
  simp only [List.forall_mem_cons, List.not_mem_nil, false_imp_iff, implies_true, and_true]
  exact ⟨.string _, .object (by simpa using .number _), .object (List.forall_mem_nil _)⟩

theorem nullFree_offered : offered.NullFree := by
  refine .object ?_
  simp only [List.forall_mem_cons, List.not_mem_nil, false_imp_iff, implies_true, and_true]
  refine ⟨.array (by simpa using .number _), .object ?_⟩
  simpa using ⟨.number _, .number _⟩

theorem merge_mirrored_claimed :
    claimed.Distinct ∧ offered.Distinct ∧ claimed.NullFree ∧ offered.NullFree ∧
      Reordered (merge .keepExisting claimed offered) (merge .takeIncoming offered claimed) :=
  ⟨distinct_claimed, distinct_offered, nullFree_claimed, nullFree_offered,
    merge_mirrored distinct_claimed distinct_offered nullFree_claimed nullFree_offered⟩

end CommandContract.Value
