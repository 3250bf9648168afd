import Mathlib.Data.List.Nodup
import CommandContract.Manifest.Load
import CommandContract.Proofs.Merge.Path

set_option autoImplicit false

/-!
# Merging the parts of a descriptor tree

What the commands and the metadata of a directory become when a source or a target is merged into
them, and then when several are, one after the other. Both kinds of merges are merges of values, a
target's after its names were put under a namespace, so what stands where follows from the law of
paths.
-/
namespace CommandContract

/-- Nothing of the value stands in the way of a leaf that is merged under it: no leaf at the path or
on the way to it, and no object at the path. -/
def Value.Spares (v : Value) (path : List String) : Prop :=
  v.Open path ∧ ∀ ms, ¬ v.HasObject path ms

theorem Value.spares_null (path : List String) : Value.null.Spares path :=
  ⟨fun _ _ _ => not_hasLeaf_null, fun _ => not_hasObject_null⟩

namespace RawManifest

open Value (HasLeaf Spares)

/-- Commands with distinct names, each an object. -/
structure Composed (commands : Members Value) : Prop where
  distinct : (Value.object commands).Distinct
  specs : ∀ m ∈ commands, ∃ properties, m.2 = .object properties

structure Sound (raw : RawManifest) : Prop where
  metadata : (Value.object raw.metadata).Distinct
  commands : Composed raw.commands

variable {parent child raw : RawManifest} {name label nspace : String} {path : List String}
  {leaf : Value} {ms : Members Value}

theorem Composed.ne_null (h : Composed ms) : ∀ m ∈ ms, m.2 ≠ .null := by
  intro m hm
  obtain ⟨properties, hp⟩ := h.specs m hm
  rw [hp]
  exact nofun

/-! ## Names under a namespace -/

/-- The name that a command of a target has above it. -/
def qualified (nspace name : String) : String := nspace ++ "/" ++ name

theorem qualified_injective (nspace : String) : Function.Injective (qualified nspace) := by
  intro a b h
  rw [qualified, qualified, ← String.toList_inj] at h
  simpa [← String.toList_inj] using h

def renamed (rename : String → String) (ms : Members Value) : Members Value :=
  ms.map fun m => (rename m.1, m.2)

theorem keys_renamed (rename : String → String) (ms : Members Value) :
    Members.keys (renamed rename ms) = (Members.keys ms).map rename := by
  simp [renamed, Members.keys, Function.comp_def]

theorem renamed_id (ms : Members Value) : renamed id ms = ms := List.map_id' ms

theorem get?_renamed {rename : String → String} (injective : Function.Injective rename)
    (name : String) (ms : Members Value) :
    Members.get? (rename name) (renamed rename ms) = Members.get? name ms := by
  induction ms with
  | nil => rfl
  | cons head rest ih =>
    obtain ⟨k, v⟩ := head
    by_cases hk : k = name
    · simp [renamed, Members.get?, hk]
    · have other : rename k ≠ rename name := fun he => hk (injective he)
      simpa [renamed, Members.get?, hk, other] using ih

theorem distinct_renamed {rename : String → String} (injective : Function.Injective rename)
    (h : (Value.object ms).Distinct) : (Value.object (renamed rename ms)).Distinct := by
  refine .object ?_ ?_
  · rw [keys_renamed]
    exact List.Nodup.map injective h.once
  · intro m hm
    obtain ⟨n, hn, rfl⟩ := List.mem_map.mp hm
    exact h.inside (m := n) hn

theorem part_renamed {rename : String → String} (injective : Function.Injective rename)
    (name : String) (ms : Members Value) :
    (Value.object (renamed rename ms)).part (rename name) = (Value.object ms).part name := by
  rw [Value.part, Value.part, Value.member?, Value.member?, get?_renamed injective]

theorem part_renamed_of_ne {rename : String → String} (other : ∀ x, rename x ≠ name)
    (ms : Members Value) : (Value.object (renamed rename ms)).part name = .null := by
  have absent : Members.get? name (renamed rename ms) = none := by
    rw [Members.get?_eq_none_iff, keys_renamed]
    intro h
    obtain ⟨x, _, hx⟩ := List.mem_map.mp h
    exact other x hx
  rw [Value.part, Value.member?, absent]
  rfl

/-! ## Commands as members -/

/-- Commands are never `null`, so they merge as the members of an object do. -/
theorem mergeCommands_eq (p : Precedence) (rename : String → String) (commands : Members Value)
    {child : Members Value} (h : ∀ m ∈ child, m.2 ≠ .null) :
    mergeCommands p rename commands child =
      Value.mergeMembers p commands (renamed rename child) := by
  induction child generalizing commands with
  | nil => simp [mergeCommands, renamed, Value.mergeMembers]
  | cons head rest ih =>
    obtain ⟨k, spec⟩ := head
    rw [List.forall_mem_cons] at h
    have present : spec.isNull = false := by
      rw [← Bool.not_eq_true, Value.isNull_eq_true_iff]
      exact h.1
    have cons : renamed rename ((k, spec) :: rest) = (rename k, spec) :: renamed rename rest := rfl
    rw [mergeCommands, ih _ h.2, cons, Value.mergeMembers_cons, Value.mergeOne]
    cases Members.get? (rename k) commands with
    | none => simp [present]
    | some existing => rfl

theorem mergeSource_commands (h : child.Sound) :
    Value.object (mergeSource parent child).commands =
      (Value.object parent.commands).merge .keepExisting (.object child.commands) := by
  rw [mergeSource, mergeCommands_eq _ _ _ h.commands.ne_null, renamed_id, Value.merge_object]

theorem mergeTarget_commands (h : child.Sound) :
    Value.object (mergeTarget parent child nspace).commands =
      (Value.object parent.commands).merge .takeIncoming
        (.object (renamed (qualified nspace) child.commands)) := by
  rw [mergeTarget, Value.merge_object, ← mergeCommands_eq _ _ _ h.commands.ne_null]
  rfl

theorem mergeSource_metadata (parent child : RawManifest) :
    Value.object (mergeSource parent child).metadata =
      (Value.object parent.metadata).merge .keepExisting (.object child.metadata) := by
  rw [mergeSource, Value.merge_object]

theorem distinct_target (h : child.Sound) (nspace : String) :
    (Value.object (renamed (qualified nspace) child.commands)).Distinct :=
  distinct_renamed (qualified_injective nspace) h.commands.distinct

/-! ## One source, one target -/

theorem Composed.nil : Composed [] := ⟨.empty, nofun⟩

theorem Composed.put (h : Composed ms) {properties : Members Value}
    (hd : (Value.object properties).Distinct) :
    Composed (Members.put name (.object properties) ms) where
  distinct := h.distinct.put hd
  specs := by
    intro m hm
    rcases Members.mem_put hm with rfl | hm
    · exact ⟨properties, rfl⟩
    · exact h.specs m hm

theorem Composed.renamed {rename : String → String} (injective : Function.Injective rename)
    (h : Composed ms) : Composed (renamed rename ms) where
  distinct := distinct_renamed injective h.distinct
  specs := by
    intro m hm
    obtain ⟨n, hn, rfl⟩ := List.mem_map.mp hm
    exact h.specs n hn

/-- One object merged into commands, or added to them. -/
theorem Composed.mergeOne (h : Composed ms) (p : Precedence) {properties : Members Value}
    (hd : (Value.object properties).Distinct) :
    Composed (Value.mergeOne p ms name (.object properties)) := by
  unfold Value.mergeOne
  split
  · rename_i existing he
    obtain ⟨old, ho⟩ := h.specs _ (Members.mem_of_get? he)
    dsimp only at ho
    subst ho
    have merged := Value.distinct_merge (p := p) (h.distinct.member he) hd
    rw [Value.merge_object] at merged ⊢
    exact h.put merged
  · exact h.put hd

theorem Composed.mergeMembers (h : Composed ms) (p : Precedence) {incoming : Members Value}
    (hi : Composed incoming) : Composed (Value.mergeMembers p ms incoming) := by
  obtain ⟨distinct, specs⟩ := hi
  have inside := fun m hm => distinct.inside (m := m) hm
  clear distinct
  induction incoming generalizing ms with
  | nil =>
    rw [Value.mergeMembers]
    exact h
  | cons head rest ih =>
    obtain ⟨k, spec⟩ := head
    rw [List.forall_mem_cons] at specs inside
    obtain ⟨⟨properties, hs⟩, specs⟩ := specs
    dsimp only at hs
    subst hs
    rw [Value.mergeMembers_cons]
    exact ih (h.mergeOne p inside.1) specs inside.2

theorem Sound.mergeSource (hp : parent.Sound) (hc : child.Sound) :
    (mergeSource parent child).Sound where
  metadata := by
    rw [mergeSource_metadata]
    exact Value.distinct_merge hp.metadata hc.metadata
  commands := by
    rw [RawManifest.mergeSource, mergeCommands_eq _ _ _ hc.commands.ne_null]
    exact hp.commands.mergeMembers _ (hc.commands.renamed Function.injective_id)

theorem mergeTarget_metadata (parent child : RawManifest) (nspace : String) :
    (mergeTarget parent child nspace).metadata = parent.metadata ∨
      ∃ defaults, Members.get? "stateDefaults" child.metadata = some defaults ∧
        (mergeTarget parent child nspace).metadata = Members.put "stateDefaults"
          (((Members.get? "stateDefaults" parent.metadata).getD (.object [])).merge .keepExisting
            defaults) parent.metadata := by
  cases h : Members.get? "stateDefaults" child.metadata with
  | none => exact .inl (by rw [mergeTarget, h])
  | some defaults => exact .inr ⟨defaults, rfl, by rw [mergeTarget, h]⟩

theorem Sound.mergeTarget (hp : parent.Sound) (hc : child.Sound) (nspace : String) :
    (mergeTarget parent child nspace).Sound where
  metadata := by
    rcases mergeTarget_metadata parent child nspace with h | ⟨defaults, hd, h⟩
    · rw [h]
      exact hp.metadata
    · rw [h]
      refine hp.metadata.put (Value.distinct_merge ?_ (hc.metadata.member hd))
      cases he : Members.get? "stateDefaults" parent.metadata with
      | none => exact .empty
      | some existing => exact hp.metadata.member he
  commands := by
    rw [RawManifest.mergeTarget, mergeCommands_eq _ _ _ hc.commands.ne_null]
    exact hp.commands.mergeMembers _ (hc.commands.renamed (qualified_injective nspace))

theorem mem_keys_mergeSource (h : child.Sound) :
    name ∈ Members.keys (mergeSource parent child).commands ↔
      name ∈ Members.keys parent.commands ∨ name ∈ Members.keys child.commands := by
  rw [mergeSource, mergeCommands_eq _ _ _ h.commands.ne_null, renamed_id]
  exact Value.mem_keys_mergeMembers_iff .keepExisting h.commands.distinct.once h.commands.ne_null

theorem mem_keys_mergeTarget (h : child.Sound) :
    name ∈ Members.keys (mergeTarget parent child nspace).commands ↔
      name ∈ Members.keys parent.commands ∨
        ∃ x ∈ Members.keys child.commands, name = qualified nspace x := by
  have composed := h.commands.renamed (qualified_injective nspace)
  rw [mergeTarget, mergeCommands_eq _ _ _ h.commands.ne_null]
  refine (Value.mem_keys_mergeMembers_iff .takeIncoming composed.distinct.once
    composed.ne_null).trans ?_
  rw [keys_renamed, List.mem_map]
  simp only [eq_comm]

/-- A source takes nothing away from the commands. -/
theorem mergeSource_keeps (h : child.Sound)
    (hl : (Value.object parent.commands).HasLeaf path leaf) :
    (Value.object (mergeSource parent child).commands).HasLeaf path leaf := by
  rw [mergeSource_commands h]
  exact Value.merge_stronger_leaf h.commands.distinct hl

/-- A target brings all leaves of its commands. -/
theorem mergeTarget_gives (h : child.Sound)
    (hl : (Value.object child.commands).HasLeaf (name :: path) leaf) :
    (Value.object (mergeTarget parent child nspace).commands).HasLeaf
      (qualified nspace name :: path) leaf := by
  rw [mergeTarget_commands h]
  refine Value.merge_stronger_leaf (distinct_target h nspace) ?_
  rw [Value.hasLeaf_cons_iff] at hl
  exact Value.hasLeaf_cons_iff.mpr ((part_renamed (qualified_injective nspace) _ _).symm ▸ hl)

/-- A target takes away only what it has something in place of. -/
theorem mergeTarget_keeps (h : child.Sound)
    (hl : (Value.object parent.commands).HasLeaf (name :: path) leaf)
    (spares : ∀ x, name = qualified nspace x → ((Value.object child.commands).part x).Spares path) :
    (Value.object (mergeTarget parent child nspace).commands).HasLeaf (name :: path) leaf := by
  have free :
      ((Value.object (renamed (qualified nspace) child.commands)).part name).Spares path := by
    by_cases hx : ∃ x, name = qualified nspace x
    · obtain ⟨x, rfl⟩ := hx
      rw [part_renamed (qualified_injective nspace)]
      exact spares x rfl
    · rw [part_renamed_of_ne fun x he => hx ⟨x, he.symm⟩]
      exact Value.spares_null path
  rw [mergeTarget_commands h]
  refine Value.merge_weaker_leaf (distinct_target h nspace) hl ?_ ?_
  · exact Value.open_cons_iff.mpr ⟨rfl, free.1⟩
  · exact fun ms ho => free.2 ms (Value.hasObject_cons_iff.mp ho)

theorem mergeSource_metadata_keeps (h : child.Sound)
    (hl : (Value.object parent.metadata).HasLeaf path leaf) :
    (Value.object (mergeSource parent child).metadata).HasLeaf path leaf := by
  rw [mergeSource_metadata]
  exact Value.merge_stronger_leaf h.metadata hl

theorem mergeSource_metadata_origin (h : child.Sound)
    (hl : (Value.object (mergeSource parent child).metadata).HasLeaf path leaf) :
    (Value.object parent.metadata).HasLeaf path leaf ∨
      (Value.object child.metadata).HasLeaf path leaf := by
  rw [mergeSource_metadata] at hl
  exact Value.merge_leaf_origin h.metadata hl

theorem part_put (key other : String) (v : Value) (ms : Members Value) :
    (Value.object (Members.put key v ms)).part other =
      if other = key then v else (Value.object ms).part other := by
  rw [Value.part, Value.part, Value.member?, Value.member?, Members.get?_put]
  split <;> rfl

/-- Of a target's metadata only the state defaults come along. -/
theorem mergeTarget_metadata_part (parent child : RawManifest) (nspace : String) {key : String}
    (other : key ≠ "stateDefaults") :
    (Value.object (mergeTarget parent child nspace).metadata).part key =
      (Value.object parent.metadata).part key := by
  rcases mergeTarget_metadata parent child nspace with h | ⟨defaults, _, h⟩
  · rw [h]
  · rw [h, part_put, if_neg other]

/-- A target takes nothing away from the metadata, the state defaults included. -/
theorem mergeTarget_metadata_keeps (h : child.Sound)
    (hl : (Value.object parent.metadata).HasLeaf path leaf) :
    (Value.object (mergeTarget parent child nspace).metadata).HasLeaf path leaf := by
  cases path with
  | nil => exact absurd hl Value.not_hasLeaf_object_nil
  | cons key path =>
    rw [Value.hasLeaf_cons_iff] at hl
    rcases mergeTarget_metadata parent child nspace with he | ⟨defaults, hd, he⟩
    · rw [he]
      exact Value.hasLeaf_cons_iff.mpr hl
    · rw [he, Value.hasLeaf_cons_iff, part_put]
      split
      · rename_i hk
        subst hk
        refine Value.merge_stronger_leaf (h.metadata.member hd) ?_
        -- a gap that the target fills held no leaf
        rw [Value.part, Value.member?] at hl
        cases hm : Members.get? "stateDefaults" parent.metadata with
        | none =>
          rw [hm] at hl
          exact absurd hl Value.not_hasLeaf_null
        | some existing =>
          rw [hm] at hl
          exact hl
      · exact hl

/-! ## All sources, all targets -/

/-- The sources merged one after the other. -/
def sourced (raw : RawManifest) (children : List (String × RawManifest)) : RawManifest :=
  children.foldl (fun raw c => mergeSource raw c.2) raw

/-- The targets merged one after the other. -/
def targeted (raw : RawManifest) (children : List (String × RawManifest)) : RawManifest :=
  children.foldl (fun raw c => mergeTarget raw c.2 c.1) raw

section Runs

variable {children : List (String × RawManifest)}

theorem Sound.sourced (h : raw.Sound) (hc : ∀ c ∈ children, c.2.Sound) :
    (raw.sourced children).Sound :=
  List.foldlRecOn children _ h fun _ hr c hm => hr.mergeSource (hc c hm)

theorem Sound.targeted (h : raw.Sound) (hc : ∀ c ∈ children, c.2.Sound) :
    (raw.targeted children).Sound :=
  List.foldlRecOn children _ h fun _ hr c hm => hr.mergeTarget (hc c hm) c.1

theorem mem_keys_sourced (hc : ∀ c ∈ children, c.2.Sound) :
    name ∈ Members.keys (raw.sourced children).commands ↔
      name ∈ Members.keys raw.commands ∨ ∃ c ∈ children, name ∈ Members.keys c.2.commands := by
  induction children generalizing raw with
  | nil => simp [sourced]
  | cons c children ih =>
    rw [List.forall_mem_cons] at hc
    refine (ih hc.2).trans ?_
    rw [mem_keys_mergeSource hc.1, or_assoc, List.exists_mem_cons_iff]

theorem mem_keys_targeted (hc : ∀ c ∈ children, c.2.Sound) :
    name ∈ Members.keys (raw.targeted children).commands ↔
      name ∈ Members.keys raw.commands ∨
        ∃ c ∈ children, ∃ x ∈ Members.keys c.2.commands, name = qualified c.1 x := by
  induction children generalizing raw with
  | nil => simp [targeted]
  | cons c children ih =>
    rw [List.forall_mem_cons] at hc
    refine (ih hc.2).trans ?_
    rw [mem_keys_mergeTarget hc.1, or_assoc, List.exists_mem_cons_iff]

theorem sourced_keeps (hc : ∀ c ∈ children, c.2.Sound)
    (hl : (Value.object raw.commands).HasLeaf path leaf) :
    (Value.object (raw.sourced children).commands).HasLeaf path leaf :=
  List.foldlRecOn children _
    (motive := fun raw : RawManifest => (Value.object raw.commands).HasLeaf path leaf) hl
    fun _ hr c hm => mergeSource_keeps (hc c hm) hr

theorem targeted_keeps (hc : ∀ c ∈ children, c.2.Sound)
    (hl : (Value.object raw.commands).HasLeaf (name :: path) leaf)
    (spares : ∀ c ∈ children, ∀ x, name = qualified c.1 x →
      ((Value.object c.2.commands).part x).Spares path) :
    (Value.object (raw.targeted children).commands).HasLeaf (name :: path) leaf :=
  List.foldlRecOn children _
    (motive := fun raw : RawManifest => (Value.object raw.commands).HasLeaf (name :: path) leaf) hl
    fun _ hr c hm => mergeTarget_keeps (hc c hm) hr (spares c hm)

/-- A leaf of a target's command stays unless a later target has a command of the same full name. -/
theorem targeted_gives {before after : List (String × RawManifest)} {c : String × RawManifest}
    (hc : ∀ d ∈ before ++ c :: after, d.2.Sound)
    (hl : (Value.object c.2.commands).HasLeaf (name :: path) leaf)
    (last : ∀ d ∈ after, ∀ x ∈ Members.keys d.2.commands, qualified c.1 name ≠ qualified d.1 x) :
    (Value.object (raw.targeted (before ++ c :: after)).commands).HasLeaf
      (qualified c.1 name :: path) leaf := by
  rw [List.forall_mem_append, List.forall_mem_cons] at hc
  rw [targeted, List.foldl_append, List.foldl_cons]
  refine targeted_keeps hc.2.2 (mergeTarget_gives hc.2.1 hl) fun d hd x he => ?_
  have absent : Members.get? x d.2.commands = none :=
    (Members.get?_eq_none_iff x _).mpr fun hx => last d hd x hx he
  rw [Value.part, Value.member?, absent]
  exact Value.spares_null path

theorem sourced_metadata_keeps (hc : ∀ c ∈ children, c.2.Sound)
    (hl : (Value.object raw.metadata).HasLeaf path leaf) :
    (Value.object (raw.sourced children).metadata).HasLeaf path leaf :=
  List.foldlRecOn children _
    (motive := fun raw : RawManifest => (Value.object raw.metadata).HasLeaf path leaf) hl
    fun _ hr c hm => mergeSource_metadata_keeps (hc c hm) hr

theorem targeted_metadata_keeps (hc : ∀ c ∈ children, c.2.Sound)
    (hl : (Value.object raw.metadata).HasLeaf path leaf) :
    (Value.object (raw.targeted children).metadata).HasLeaf path leaf :=
  List.foldlRecOn children _
    (motive := fun raw : RawManifest => (Value.object raw.metadata).HasLeaf path leaf) hl
    fun _ hr c hm => mergeTarget_metadata_keeps (hc c hm) hr

theorem sourced_metadata_origin (hc : ∀ c ∈ children, c.2.Sound)
    (hl : (Value.object (raw.sourced children).metadata).HasLeaf path leaf) :
    (Value.object raw.metadata).HasLeaf path leaf ∨
      ∃ c ∈ children, (Value.object c.2.metadata).HasLeaf path leaf := by
  induction children generalizing raw with
  | nil => exact .inl hl
  | cons c children ih =>
    rw [List.forall_mem_cons] at hc
    rw [List.exists_mem_cons_iff, ← or_assoc]
    exact (ih hc.2 hl).imp_left (mergeSource_metadata_origin hc.1)

theorem targeted_metadata_part (raw : RawManifest) (children : List (String × RawManifest))
    {key : String} (other : key ≠ "stateDefaults") :
    (Value.object (raw.targeted children).metadata).part key =
      (Value.object raw.metadata).part key :=
  List.foldlRecOn children (fun raw c => mergeTarget raw c.2 c.1)
    (motive := fun merged => (Value.object merged.metadata).part key =
      (Value.object raw.metadata).part key) rfl
    fun merged hm c _ => (mergeTarget_metadata_part merged c.2 c.1 other).trans hm

end Runs

end RawManifest

end CommandContract
