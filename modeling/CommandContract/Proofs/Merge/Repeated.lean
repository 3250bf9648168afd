import CommandContract.Proofs.Merge.Path

set_option autoImplicit false

/-!
# Merging again what was merged

A value that was merged into another one changes nothing when it is merged again: at once,
`Value.merge_again`, or, where what is there wins, after any other value was merged,
`Value.merge_again_later`.
-/
namespace CommandContract.Value

variable {p : Precedence} {v base incoming earlier later : Value} {key : String}
  {existing ms : Members Value}

theorem mergeMember?_null (p : Precedence) (existing : Option Value) :
    mergeMember? p existing (some null) = existing := by
  cases existing with
  | none => rfl
  | some v => rw [mergeMember?, merge_null]

theorem mergeMember?_none_eq_none (h : mergeMember? p none (some v) = none) : v = null := by
  rw [mergeMember?, Option.filter_eq_none_iff] at h
  simpa [isNull_eq_true_iff] using h v rfl

/-! ## What changes nothing -/

theorem mergeOne_eq_self
    (h : mergeMember? p (Members.get? key existing) (some incoming) = Members.get? key existing) :
    mergeOne p existing key incoming = existing := by
  unfold mergeOne
  cases held : Members.get? key existing with
  | some v =>
    rw [held] at h
    dsimp only
    rw [Option.some.inj h]
    exact Members.put_of_get? held
  | none =>
    rw [held] at h
    rw [mergeMember?_none_eq_none h]
    rfl

/-- Members change nothing exactly if none of them does. -/
theorem mergeMembers_eq_self_iff (once : (Members.keys ms).Nodup) :
    mergeMembers p existing ms = existing ↔
      ∀ m ∈ ms, mergeMember? p (Members.get? m.1 existing) (some m.2) =
        Members.get? m.1 existing := by
  constructor
  · intro h m hm
    have merged := get?_mergeMembers p existing ms once m.1
    rw [h, (Members.get?_eq_some_iff once).mpr hm] at merged
    exact merged.symm
  · intro h
    clear once
    induction ms with
    | nil => rw [mergeMembers]
    | cons m ms ih =>
      rw [List.forall_mem_cons] at h
      rw [mergeMembers_cons, mergeOne_eq_self h.1, ih h.2]

theorem merge_object_eq_self_iff (once : (Members.keys ms).Nodup) :
    merge p (object existing) (object ms) = object existing ↔
      ∀ m ∈ ms, mergeMember? p (Members.get? m.1 existing) (some m.2) =
        Members.get? m.1 existing := by
  rw [merge_object, object.injEq, mergeMembers_eq_self_iff once]

/-! ## The same value again -/

theorem merge_self (p : Precedence) (h : v.Distinct) : merge p v v = v := by
  have leaf : ∀ v : Value, v.isLeaf = true → merge p v v = v := by
    intro v hv
    rw [merge_conflict (ne_null_of_isLeaf hv) (ne_null_of_isLeaf hv) (.inl hv)]
    cases p <;> rfl
  induction h with
  | null => exact merge_null p null
  | object once inside ih =>
    refine (merge_object_eq_self_iff once).mpr fun m hm => ?_
    rw [(Members.get?_eq_some_iff once).mpr hm, mergeMember?, ih m hm]
  | _ => exact leaf _ rfl

theorem mergeMember?_again (p : Precedence) (existing : Option Value) (hv : v.Distinct)
    (again : ∀ base, merge p (merge p base v) v = merge p base v) :
    mergeMember? p (mergeMember? p existing (some v)) (some v) =
      mergeMember? p existing (some v) := by
  cases existing with
  | some w => rw [mergeMember?, mergeMember?, again]
  | none =>
    by_cases hn : v = null
    · rw [hn, mergeMember?_null]
    · have kept : mergeMember? p none (some v) = some v := by
        rw [← isNull_eq_true_iff] at hn
        simp [mergeMember?, hn]
      rw [kept, mergeMember?, merge_self p hv]

/-- Only two objects make something new. -/
theorem merge_again_of_objects (h : incoming.Distinct)
    (objects : ∀ existing ms, base = object existing → incoming = object ms →
      merge p (object (mergeMembers p existing ms)) (object ms) =
        object (mergeMembers p existing ms)) :
    merge p (merge p base incoming) incoming = merge p base incoming := by
  have step := merge_merging p base incoming
  generalize merged : merge p base incoming = result at step ⊢
  cases step with
  | nothing => exact merge_null p base
  | blank => exact merge_self p h
  | objects existing ms => exact objects existing ms rfl rfl
  | conflict hb hi leaf =>
    cases p with
    | keepExisting => exact merged
    | takeIncoming => exact merge_self _ h

theorem merge_again (p : Precedence) (base : Value) (h : incoming.Distinct) :
    merge p (merge p base incoming) incoming = merge p base incoming := by
  induction h generalizing base with
  | object once inside ih =>
    refine merge_again_of_objects (.object once inside) ?_
    rintro existing _ rfl ⟨⟩
    refine (merge_object_eq_self_iff once).mpr fun m hm => ?_
    rw [get?_mergeMembers p existing _ once, (Members.get?_eq_some_iff once).mpr hm]
    exact mergeMember?_again p _ (inside m hm) (ih m hm)
  | array inside => exact merge_again_of_objects (.array inside) nofun
  | _ => exact merge_again_of_objects (by constructor) nofun

theorem mergeMembers_again (p : Precedence) (existing : Members Value)
    (h : Distinct (.object ms)) :
    mergeMembers p (mergeMembers p existing ms) ms = mergeMembers p existing ms := by
  have again := merge_again p (object existing) h
  rwa [merge_object, merge_object, object.injEq] at again

/-! ## After other values -/

theorem merge_keep_of_not_object (hb : base ≠ null) (hi : ∀ ms, incoming ≠ object ms) :
    merge .keepExisting base incoming = base := by
  by_cases nothing : incoming = null
  · rw [nothing, merge_null]
  · refine merge_conflict hb nothing (.inr ?_)
    by_contra leaf
    obtain ⟨ms, rfl⟩ := eq_object_of_not_isLeaf nothing leaf
    exact hi ms rfl

/-- Only where another object came in there is something new. -/
theorem merge_again_later_of_objects (h : merge .keepExisting base earlier = base)
    (objects : ∀ existing ms, base = object existing → later = object ms →
      merge .keepExisting (object (mergeMembers .keepExisting existing ms)) earlier =
        object (mergeMembers .keepExisting existing ms)) :
    merge .keepExisting (merge .keepExisting base later) earlier =
      merge .keepExisting base later := by
  have step := merge_merging .keepExisting base later
  generalize merge .keepExisting base later = result at step ⊢
  cases step with
  | nothing => exact h
  | blank =>
    rw [merge_blank] at h
    rw [h, merge_null]
  | objects existing ms => exact objects existing ms rfl rfl
  | conflict => exact h

/-- What is there wins, so a value that changes nothing changes nothing after others either. -/
theorem merge_again_later (he : earlier.Distinct) (hl : later.Distinct)
    (h : merge .keepExisting base earlier = base) :
    merge .keepExisting (merge .keepExisting base later) earlier =
      merge .keepExisting base later := by
  induction he generalizing base later with
  | object once inside ih =>
    refine merge_again_later_of_objects h ?_
    rintro existing ms rfl rfl
    rw [merge_object_eq_self_iff once] at h ⊢
    intro m hm
    have before := h m hm
    rw [get?_mergeMembers _ existing ms hl.once]
    cases held : Members.get? m.1 existing with
    | none =>
      rw [held] at before
      rw [mergeMember?_none_eq_none before, mergeMember?_null]
    | some v =>
      rw [held] at before
      cases given : Members.get? m.1 ms with
      | none => exact before
      | some w => exact congrArg some (ih m hm (hl.member given) (Option.some.inj before))
  | _ =>
    refine merge_again_later_of_objects h fun existing ms _ _ => ?_
    exact merge_keep_of_not_object nofun nofun

end CommandContract.Value
