import CommandContract.Merge
import CommandContract.Proofs.Json.Distinct

set_option autoImplicit false

/-!
# What stands at a path after a merge

A path is a list of names that leads through objects. Everything that is neither `null` nor an
object is a leaf, arrays included. `Value.merge_pathLaw` says which leaves and objects of two values
are left after a merge and where every leaf of the result comes from.
-/
namespace CommandContract.Value

/-! ## Paths -/

/-- The value that a path leads to. -/
def at? : List String → Value → Option Value
  | [], v => some v
  | key :: path, v => (v.member? key).bind (at? path)

/-- Neither `null` nor an object. -/
def isLeaf : Value → Bool
  | null => false
  | object _ => false
  | _ => true

def HasLeaf (v : Value) (path : List String) (leaf : Value) : Prop :=
  v.at? path = some leaf ∧ leaf.isLeaf = true

def HasObject (v : Value) (path : List String) (members : Members Value) : Prop :=
  v.at? path = some (object members)

/-- No leaf stands at the path or on the way to it. -/
def Open (v : Value) (path : List String) : Prop :=
  ∀ way leaf, way <+: path → ¬ v.HasLeaf way leaf

/-- The member of an object, where one that is missing counts as `null`. -/
def part (key : String) (v : Value) : Value := (v.member? key).getD null

variable {p : Precedence} {base incoming leaf v : Value} {key : String} {path : List String}
  {ms : Members Value}

theorem isNull_eq_true_iff : v.isNull = true ↔ v = null := by
  cases v <;> simp [isNull]

theorem at?_null_of_ne (h : v ≠ null) : null.at? path ≠ some v := by
  cases path with
  | nil => exact fun he => h (Option.some.inj he).symm
  | cons key path => exact nofun

theorem at?_cons_iff (h : v ≠ null) {u : Value} :
    u.at? (key :: path) = some v ↔ (u.part key).at? path = some v := by
  rw [at?, part]
  cases u.member? key with
  | none => exact ⟨nofun, fun hn => absurd hn (at?_null_of_ne h)⟩
  | some w => rfl

theorem ne_null_of_isLeaf (h : v.isLeaf = true) : v ≠ null := by
  rintro rfl
  cases h

theorem hasLeaf_cons_iff : v.HasLeaf (key :: path) leaf ↔ (v.part key).HasLeaf path leaf :=
  and_congr_left fun h => at?_cons_iff (ne_null_of_isLeaf h)

theorem hasObject_cons_iff : v.HasObject (key :: path) ms ↔ (v.part key).HasObject path ms :=
  at?_cons_iff (v := object ms) nofun

theorem not_hasLeaf_null : ¬ null.HasLeaf path leaf := fun h =>
  at?_null_of_ne (ne_null_of_isLeaf h.2) h.1

theorem not_hasObject_null : ¬ null.HasObject path ms := at?_null_of_ne (v := object ms) nofun

theorem not_hasLeaf_object_nil : ¬ (object ms).HasLeaf [] leaf := by
  rintro ⟨h, hl⟩
  cases h
  cases hl

/-- Nothing stands below a leaf. -/
theorem part_of_isLeaf (h : v.isLeaf = true) (key : String) : v.part key = null := by
  cases v <;> first | rfl | cases h

theorem not_hasObject_of_isLeaf (h : v.isLeaf = true) : ¬ v.HasObject path ms := by
  intro ho
  cases path with
  | nil =>
    cases ho
    cases h
  | cons key path =>
    rw [hasObject_cons_iff, part_of_isLeaf h] at ho
    exact not_hasObject_null ho

theorem not_open_of_isLeaf (h : v.isLeaf = true) : ¬ v.Open path := fun ho =>
  ho [] v List.nil_prefix ⟨rfl, h⟩

theorem eq_object_of_not_isLeaf (hn : v ≠ null) (h : v.isLeaf ≠ true) : ∃ ms, v = object ms := by
  cases v with
  | null => exact absurd rfl hn
  | object ms => exact ⟨ms, rfl⟩
  | _ => exact absurd rfl h

theorem open_nil_iff : v.Open [] ↔ v.isLeaf = false := by
  refine ⟨fun h => Bool.not_eq_true _ ▸ fun hl => not_open_of_isLeaf hl h, ?_⟩
  rintro hv way leaf hw ⟨h, hl⟩
  obtain rfl := List.prefix_nil.mp hw
  cases h
  rw [hv] at hl
  cases hl

theorem Open.part (h : v.Open (key :: path)) : (v.part key).Open path := fun way leaf hw hl =>
  h (key :: way) leaf (List.cons_prefix_cons.mpr ⟨rfl, hw⟩) (hasLeaf_cons_iff.mpr hl)

theorem open_cons_iff : v.Open (key :: path) ↔ v.isLeaf = false ∧ (v.part key).Open path := by
  refine ⟨fun h => ⟨open_nil_iff.mp fun way leaf hw => h way leaf ?_, h.part⟩, ?_⟩
  · exact hw.trans List.nil_prefix
  · rintro ⟨hv, inside⟩ way leaf hw h
    cases way with
    | nil => exact open_nil_iff.mpr hv [] leaf List.prefix_rfl h
    | cons k way =>
      obtain ⟨rfl, below⟩ := List.cons_prefix_cons.mp hw
      exact inside way leaf below (hasLeaf_cons_iff.mp h)

theorem part_choose (p : Precedence) (base incoming : Value) (key : String) :
    (p.choose base incoming).part key = p.choose (base.part key) (incoming.part key) := by
  cases p <;> rfl

/-! ## Cases of a merge -/

/-- What two values merge to. -/
inductive Merging (p : Precedence) : Value → Value → Value → Prop
  | nothing (base : Value) : Merging p base null base
  | blank (incoming : Value) : Merging p null incoming incoming
  | objects (existing ms : Members Value) :
      Merging p (object existing) (object ms) (object (mergeMembers p existing ms))
  | conflict {base incoming : Value} (hb : base ≠ null) (hi : incoming ≠ null)
      (leaf : base.isLeaf = true ∨ incoming.isLeaf = true) :
      Merging p base incoming (p.choose base incoming)

theorem merge_null (p : Precedence) (base : Value) : merge p base null = base := by
  rw [merge]

theorem merge_blank (p : Precedence) (incoming : Value) : merge p null incoming = incoming := by
  cases incoming <;> simp [merge, isNull]

theorem merge_object (p : Precedence) (existing ms : Members Value) :
    merge p (object existing) (object ms) = object (mergeMembers p existing ms) := by
  rw [merge]

theorem merge_conflict (hb : base ≠ null) (hi : incoming ≠ null)
    (leaf : base.isLeaf = true ∨ incoming.isLeaf = true) :
    merge p base incoming = p.choose base incoming := by
  cases incoming with
  | null => exact absurd rfl hi
  | object ms =>
    cases base with
    | null => exact absurd rfl hb
    | object existing => rcases leaf with h | h <;> cases h
    | _ => simp [merge]
  | _ =>
    have kept : base.isNull = false := by
      rw [← Bool.not_eq_true, isNull_eq_true_iff]
      exact hb
    simp [merge, kept]

theorem merge_merging (p : Precedence) (base incoming : Value) :
    Merging p base incoming (merge p base incoming) := by
  by_cases hi : incoming = null
  · subst hi
    rw [merge_null]
    exact .nothing base
  by_cases hb : base = null
  · subst hb
    rw [merge_blank]
    exact .blank incoming
  by_cases leaf : base.isLeaf = true ∨ incoming.isLeaf = true
  · rw [merge_conflict hb hi leaf]
    exact .conflict hb hi leaf
  · rw [not_or] at leaf
    obtain ⟨existing, rfl⟩ := eq_object_of_not_isLeaf hb leaf.1
    obtain ⟨ms, rfl⟩ := eq_object_of_not_isLeaf hi leaf.2
    rw [merge_object]
    exact .objects existing ms

/-! ## Members of a merged object -/

/-- What becomes of two members of one name, either of which may be missing. -/
def mergeMember? (p : Precedence) : Option Value → Option Value → Option Value
  | some existing, some incoming => some (merge p existing incoming)
  | some existing, none => some existing
  | none, incoming => incoming.filter fun v => !v.isNull

/-- The members that come in under new names. -/
def newMembers (existing ms : Members Value) : Members Value :=
  ms.filter fun m => !(Members.keys existing).contains m.1 && !m.2.isNull

/-- One member merged into others. -/
def mergeOne (p : Precedence) (existing : Members Value) (key : String) (incoming : Value) :
    Members Value :=
  match Members.get? key existing with
  | some v => Members.put key (merge p v incoming) existing
  | none => if incoming.isNull then existing else Members.put key incoming existing

theorem mergeMembers_cons (p : Precedence) (existing : Members Value) (key : String)
    (incoming : Value) (rest : Members Value) :
    mergeMembers p existing ((key, incoming) :: rest) =
      mergeMembers p (mergeOne p existing key incoming) rest := by
  rw [mergeMembers]
  rfl

theorem get?_mergeOne (p : Precedence) (existing : Members Value) (key other : String)
    (incoming : Value) :
    Members.get? other (mergeOne p existing key incoming) =
      if other = key then mergeMember? p (Members.get? key existing) (some incoming)
      else Members.get? other existing := by
  unfold mergeOne
  split
  · rename_i v hv
    rw [Members.get?_put, hv]
    rfl
  · rename_i hn
    by_cases hi : incoming.isNull = true
    · by_cases ho : other = key
      · simp [hi, ho, hn, mergeMember?, Option.filter]
      · simp [hi, ho]
    · simp [hi, hn, Members.get?_put, mergeMember?, Option.filter]

theorem newMembers_singleton (existing : Members Value) (key : String) (v : Value) :
    newMembers existing [(key, v)] =
      if key ∈ Members.keys existing ∨ v.isNull = true then [] else [(key, v)] := by
  unfold newMembers
  by_cases hk : key ∈ Members.keys existing <;> cases hv : v.isNull <;> simp [hk, hv]

theorem keys_mergeOne (p : Precedence) (existing : Members Value) (key : String)
    (incoming : Value) :
    Members.keys (mergeOne p existing key incoming) =
      Members.keys existing ++ Members.keys (newMembers existing [(key, incoming)]) := by
  rw [newMembers_singleton]
  unfold mergeOne
  split
  · rename_i v hv
    have present : key ∈ Members.keys existing := by
      by_contra h
      rw [(Members.get?_eq_none_iff key existing).mpr h] at hv
      cases hv
    rw [Members.keys_put, if_pos present, if_pos (.inl present)]
    exact (List.append_nil _).symm
  · rename_i hn
    rw [Members.get?_eq_none_iff] at hn
    by_cases hi : incoming.isNull = true
    · rw [if_pos hi, if_pos (.inr hi)]
      exact (List.append_nil _).symm
    · rw [if_neg hi, Members.keys_put, if_neg hn, if_neg (not_or.mpr ⟨hn, hi⟩)]
      rfl

/-- A member of the result is made of the two members of its name. -/
theorem get?_mergeMembers (p : Precedence) (existing ms : Members Value)
    (once : (Members.keys ms).Nodup) (key : String) :
    Members.get? key (mergeMembers p existing ms) =
      mergeMember? p (Members.get? key existing) (Members.get? key ms) := by
  induction ms generalizing existing with
  | nil =>
    rw [mergeMembers]
    cases Members.get? key existing <;> rfl
  | cons head rest ih =>
    obtain ⟨k, incoming⟩ := head
    rw [Members.keys_cons, List.nodup_cons] at once
    rw [mergeMembers_cons, ih _ once.2, get?_mergeOne]
    by_cases hk : key = k
    · subst hk
      have last : Members.get? key rest = none := (Members.get?_eq_none_iff key rest).mpr once.1
      rw [if_pos rfl, last, Members.get?, if_pos rfl]
      cases mergeMember? p (Members.get? key existing) (some incoming) <;> rfl
    · rw [if_neg hk, Members.get?, if_neg (Ne.symm hk)]

/-- The names that were there come first, then the new ones, each in its order. -/
theorem keys_mergeMembers (p : Precedence) (existing ms : Members Value)
    (once : (Members.keys ms).Nodup) :
    Members.keys (mergeMembers p existing ms) =
      Members.keys existing ++ Members.keys (newMembers existing ms) := by
  induction ms generalizing existing with
  | nil => simp [mergeMembers, newMembers, Members.keys]
  | cons head rest ih =>
    obtain ⟨k, incoming⟩ := head
    rw [Members.keys_cons, List.nodup_cons] at once
    have later : newMembers (mergeOne p existing k incoming) rest = newMembers existing rest := by
      refine List.filter_congr fun m hm => ?_
      have other : m.1 ≠ k := fun he => once.1 (he ▸ List.mem_map_of_mem hm)
      have same : m.1 ∈ Members.keys (mergeOne p existing k incoming) ↔
          m.1 ∈ Members.keys existing := by
        rw [← not_iff_not, ← Members.get?_eq_none_iff, ← Members.get?_eq_none_iff, get?_mergeOne,
          if_neg other]
      simp [same]
    have split : newMembers existing ((k, incoming) :: rest) =
        newMembers existing [(k, incoming)] ++ newMembers existing rest := by
      simp only [newMembers, ← List.filter_append]
      rfl
    rw [mergeMembers_cons, ih _ once.2, keys_mergeOne, later, split, List.append_assoc]
    exact congrArg _ List.map_append.symm

/-- Where no `null` comes in, the names of the result are those of both. -/
theorem mem_keys_mergeMembers_iff (p : Precedence) {existing : Members Value}
    (once : (Members.keys ms).Nodup) (solid : ∀ m ∈ ms, m.2 ≠ null) :
    key ∈ Members.keys (mergeMembers p existing ms) ↔
      key ∈ Members.keys existing ∨ key ∈ Members.keys ms := by
  rw [← not_iff_not, not_or, ← Members.get?_eq_none_iff, ← Members.get?_eq_none_iff,
    ← Members.get?_eq_none_iff, get?_mergeMembers p existing ms once]
  cases Members.get? key existing with
  | some v => cases Members.get? key ms <;> simp [mergeMember?]
  | none =>
    cases given : Members.get? key ms with
    | none => simp [mergeMember?]
    | some w =>
      have present := solid _ (Members.mem_of_get? given)
      rw [ne_eq, ← isNull_eq_true_iff] at present
      simp [mergeMember?, present]

/-- Objects merge member by member, a missing one counting as `null`. -/
theorem part_mergeMembers (p : Precedence) (existing ms : Members Value)
    (once : (Members.keys ms).Nodup) (key : String) :
    (object (mergeMembers p existing ms)).part key =
      merge p ((object existing).part key) ((object ms).part key) := by
  simp only [part, member?, get?_mergeMembers p existing ms once key]
  cases Members.get? key existing with
  | some v =>
    cases Members.get? key ms with
    | some w => rfl
    | none => exact (merge_null p v).symm
  | none =>
    cases Members.get? key ms with
    | some w =>
      rw [Option.getD_none, Option.getD_some, merge_blank]
      cases w <;> rfl
    | none => exact (merge_null p null).symm

/-! ## Distinct names -/

theorem distinct_choose (hb : base.Distinct) (hi : incoming.Distinct) :
    (p.choose base incoming).Distinct := by
  cases p with
  | keepExisting => exact hb
  | takeIncoming => exact hi

theorem distinct_mergeOne {existing : Members Value} (he : (object existing).Distinct)
    (hi : incoming.Distinct)
    (merged : ∀ base : Value, base.Distinct → (merge p base incoming).Distinct) :
    (object (mergeOne p existing key incoming)).Distinct := by
  unfold mergeOne
  split
  · rename_i v hv
    exact he.put (merged v (he.member hv))
  · split
    · exact he
    · exact he.put hi

theorem distinct_mergeMembers {existing : Members Value} (he : (object existing).Distinct)
    (inside : ∀ m ∈ ms, m.2.Distinct ∧
      ∀ base : Value, base.Distinct → (merge p base m.2).Distinct) :
    (object (mergeMembers p existing ms)).Distinct := by
  induction ms generalizing existing with
  | nil =>
    rw [mergeMembers]
    exact he
  | cons head rest ih =>
    obtain ⟨key, incoming⟩ := head
    rw [List.forall_mem_cons] at inside
    rw [mergeMembers_cons]
    exact ih (distinct_mergeOne he inside.1.1 inside.1.2) inside.2

/-- Only two objects make something new. -/
theorem distinct_merge_of_objects (hb : base.Distinct) (hi : incoming.Distinct)
    (objects : ∀ existing ms, base = object existing → incoming = object ms →
      (object (mergeMembers p existing ms)).Distinct) : (merge p base incoming).Distinct := by
  have step := merge_merging p base incoming
  generalize merge p base incoming = result at step ⊢
  cases step with
  | nothing => exact hb
  | blank => exact hi
  | objects existing ms => exact objects existing ms rfl rfl
  | conflict => exact distinct_choose hb hi

theorem distinct_merge (hb : base.Distinct) (hi : incoming.Distinct) :
    (merge p base incoming).Distinct := by
  induction hi generalizing base with
  | object once inside ih =>
    refine distinct_merge_of_objects hb (.object once inside) ?_
    rintro existing _ rfl ⟨⟩
    exact distinct_mergeMembers hb fun m hm => ⟨inside m hm, fun _ hb => ih m hm hb⟩
  | array inside => exact distinct_merge_of_objects hb (.array inside) nofun
  | _ => exact distinct_merge_of_objects hb (by constructor) nofun

/-! ## The law of paths -/

theorem Distinct.part (h : v.Distinct) (key : String) : (v.part key).Distinct := by
  cases h with
  | object once inside =>
    rw [Value.part, member?]
    cases hm : Members.get? key _ with
    | none => exact .null
    | some w => exact inside _ (Members.mem_of_get? hm)
  | _ => exact .null

/-- A property of a path in two values and their merge holds if it holds where one of the values is
taken whole and, below two objects, if it holds for the parts of one name. -/
theorem merge_induction (p : Precedence)
    {motive : List String → Value → Value → Value → Prop}
    (nothing : ∀ path base, motive path base null base)
    (blank : ∀ path incoming, motive path null incoming incoming)
    (conflict : ∀ path base incoming, base ≠ null → incoming ≠ null →
      (base.isLeaf = true ∨ incoming.isLeaf = true) →
      motive path base incoming (p.choose base incoming))
    (objects : ∀ existing ms merged,
      Members.keys merged = Members.keys existing ++ Members.keys (newMembers existing ms) →
      motive [] (object existing) (object ms) (object merged))
    (member : ∀ key path base incoming result,
      motive path (base.part key) (incoming.part key) (result.part key) →
      motive (key :: path) base incoming result)
    (path : List String) (base incoming : Value) (hd : incoming.Distinct) :
    motive path base incoming (merge p base incoming) := by
  induction path generalizing base incoming with
  | nil =>
    have step := merge_merging p base incoming
    generalize merge p base incoming = result at step ⊢
    cases step with
    | nothing => exact nothing _ _
    | blank => exact blank _ _
    | objects existing ms => exact objects _ _ _ (keys_mergeMembers p existing ms hd.once)
    | conflict hb hi leaf => exact conflict _ _ _ hb hi leaf
  | cons key path ih =>
    have step := merge_merging p base incoming
    generalize merge p base incoming = result at step ⊢
    cases step with
    | nothing => exact nothing _ _
    | blank => exact blank _ _
    | objects existing ms =>
      refine member _ _ _ _ _ ?_
      rw [part_mergeMembers p existing ms hd.once]
      exact ih _ _ (hd.part key)
    | conflict hb hi leaf => exact conflict _ _ _ hb hi leaf

/-- The leaves of the stronger value stay where they are. -/
theorem merge_stronger_leaf (hd : incoming.Distinct)
    (h : (p.choose base incoming).HasLeaf path leaf) :
    (merge p base incoming).HasLeaf path leaf := by
  revert h
  refine merge_induction p
    (motive := fun path base incoming result =>
      (p.choose base incoming).HasLeaf path leaf → result.HasLeaf path leaf)
    ?nothing ?blank ?conflict ?objects ?member path base incoming hd
  case nothing =>
    intro path base h
    cases p with
    | keepExisting => exact h
    | takeIncoming => exact absurd h not_hasLeaf_null
  case blank =>
    intro path incoming h
    cases p with
    | keepExisting => exact absurd h not_hasLeaf_null
    | takeIncoming => exact h
  case conflict => exact fun _ _ _ _ _ _ h => h
  case objects =>
    intro existing ms merged _ h
    cases p <;> exact absurd h not_hasLeaf_object_nil
  case member =>
    intro key path base incoming result ih h
    rw [hasLeaf_cons_iff, part_choose] at h
    exact hasLeaf_cons_iff.mpr (ih h)

/-- Where the stronger value has an object, the result has one. -/
theorem merge_stronger_object (hd : incoming.Distinct)
    (h : (p.choose base incoming).HasObject path ms) :
    ∃ merged, (merge p base incoming).HasObject path merged := by
  revert h
  refine merge_induction p
    (motive := fun path base incoming result =>
      (p.choose base incoming).HasObject path ms → ∃ merged, result.HasObject path merged)
    ?nothing ?blank ?conflict ?objects ?member path base incoming hd
  case nothing =>
    intro path base h
    cases p with
    | keepExisting => exact ⟨ms, h⟩
    | takeIncoming => exact absurd h not_hasObject_null
  case blank =>
    intro path incoming h
    cases p with
    | keepExisting => exact absurd h not_hasObject_null
    | takeIncoming => exact ⟨ms, h⟩
  case conflict => exact fun _ _ _ _ _ _ h => ⟨ms, h⟩
  case objects => exact fun _ _ merged _ _ => ⟨merged, rfl⟩
  case member =>
    intro key path base incoming result ih h
    rw [hasObject_cons_iff, part_choose] at h
    obtain ⟨merged, hm⟩ := ih h
    exact ⟨merged, hasObject_cons_iff.mpr hm⟩

/-- A value that leaves room at a path is an object, so a leaf in conflict with it stands at the top
and not at the path. -/
theorem not_hasLeaf_of_open {stronger weaker : Value} (hn : stronger ≠ null)
    (free : stronger.Open path) (noObject : ∀ ms, ¬ stronger.HasObject path ms)
    (hw : weaker.isLeaf = true) : ¬ weaker.HasLeaf path leaf := by
  intro h
  obtain ⟨ms, rfl⟩ := eq_object_of_not_isLeaf hn fun hl => not_open_of_isLeaf hl free
  cases path with
  | nil => exact noObject ms rfl
  | cons key path =>
    rw [hasLeaf_cons_iff, part_of_isLeaf hw] at h
    exact not_hasLeaf_null h

/-- The leaves of the weaker value fill the gaps of the stronger one. -/
theorem merge_weaker_leaf (hd : incoming.Distinct)
    (h : (p.choose incoming base).HasLeaf path leaf) (free : (p.choose base incoming).Open path)
    (noObject : ∀ ms, ¬ (p.choose base incoming).HasObject path ms) :
    (merge p base incoming).HasLeaf path leaf := by
  revert h free noObject
  refine merge_induction p
    (motive := fun path base incoming result =>
      (p.choose incoming base).HasLeaf path leaf → (p.choose base incoming).Open path →
      (∀ ms, ¬ (p.choose base incoming).HasObject path ms) → result.HasLeaf path leaf)
    ?nothing ?blank ?conflict ?objects ?member path base incoming hd
  case nothing =>
    intro path base h _ _
    cases p with
    | keepExisting => exact absurd h not_hasLeaf_null
    | takeIncoming => exact h
  case blank =>
    intro path incoming h _ _
    cases p with
    | keepExisting => exact h
    | takeIncoming => exact absurd h not_hasLeaf_null
  case conflict =>
    intro path base incoming hb hi one h free noObject
    cases p with
    | keepExisting =>
      have weak := one.resolve_left fun hl => not_open_of_isLeaf hl free
      exact absurd h (not_hasLeaf_of_open hb free noObject weak)
    | takeIncoming =>
      have weak := one.resolve_right fun hl => not_open_of_isLeaf hl free
      exact absurd h (not_hasLeaf_of_open hi free noObject weak)
  case objects =>
    intro existing ms merged _ h
    cases p <;> exact absurd h not_hasLeaf_object_nil
  case member =>
    intro key path base incoming result ih h free noObject
    rw [hasLeaf_cons_iff, part_choose] at h
    refine hasLeaf_cons_iff.mpr (ih h ?_ ?_)
    · rw [← part_choose]
      exact free.part
    · intro ms ho
      rw [← part_choose] at ho
      exact noObject ms (hasObject_cons_iff.mpr ho)

/-- Every leaf of the result stands at the same path in one of the two values. -/
theorem merge_leaf_origin (hd : incoming.Distinct)
    (h : (merge p base incoming).HasLeaf path leaf) :
    base.HasLeaf path leaf ∨ incoming.HasLeaf path leaf := by
  revert h
  refine merge_induction p
    (motive := fun path base incoming result =>
      result.HasLeaf path leaf → base.HasLeaf path leaf ∨ incoming.HasLeaf path leaf)
    ?nothing ?blank ?conflict ?objects ?member path base incoming hd
  case nothing => exact fun _ _ h => .inl h
  case blank => exact fun _ _ h => .inr h
  case conflict =>
    intro path base incoming _ _ _ h
    cases p with
    | keepExisting => exact .inl h
    | takeIncoming => exact .inr h
  case objects => exact fun _ _ _ _ h => absurd h not_hasLeaf_object_nil
  case member =>
    intro key path base incoming result ih h
    rw [hasLeaf_cons_iff] at h
    exact (ih h).imp hasLeaf_cons_iff.mpr hasLeaf_cons_iff.mpr

/-- Where two objects meet, the names that were there come first and the new ones follow. -/
theorem merge_names (hd : incoming.Distinct) {existing : Members Value}
    (hb : base.HasObject path existing) (hi : incoming.HasObject path ms) :
    ∃ merged, (merge p base incoming).HasObject path merged ∧
      Members.keys merged = Members.keys existing ++ Members.keys (newMembers existing ms) := by
  revert hb hi
  refine merge_induction p
    (motive := fun path base incoming result =>
      base.HasObject path existing → incoming.HasObject path ms →
      ∃ merged, result.HasObject path merged ∧
        Members.keys merged = Members.keys existing ++ Members.keys (newMembers existing ms))
    ?nothing ?blank ?conflict ?objects ?member path base incoming hd
  case nothing => exact fun _ _ _ hi => absurd hi not_hasObject_null
  case blank => exact fun _ _ hb _ => absurd hb not_hasObject_null
  case conflict =>
    intro path base incoming _ _ one hb hi
    rcases one with hl | hl
    · exact absurd hb (not_hasObject_of_isLeaf hl)
    · exact absurd hi (not_hasObject_of_isLeaf hl)
  case objects =>
    intro existing ms merged names hb hi
    cases hb
    cases hi
    exact ⟨merged, rfl, names⟩
  case member =>
    intro key path base incoming result ih hb hi
    obtain ⟨merged, hm, names⟩ := ih (hasObject_cons_iff.mp hb) (hasObject_cons_iff.mp hi)
    exact ⟨merged, hasObject_cons_iff.mpr hm, names⟩

/-- The result of a merge that one of two values wins. -/
structure WonBy (stronger weaker result : Value) : Prop where
  kept : ∀ path leaf, stronger.HasLeaf path leaf → result.HasLeaf path leaf
  objects : ∀ path ms, stronger.HasObject path ms → ∃ merged, result.HasObject path merged
  filled : ∀ path leaf, weaker.HasLeaf path leaf → stronger.Open path →
    (∀ ms, ¬ stronger.HasObject path ms) → result.HasLeaf path leaf

/-- What the result of a merge is made of, whoever wins. -/
structure MadeOf (base incoming result : Value) : Prop where
  origin : ∀ path leaf, result.HasLeaf path leaf →
    base.HasLeaf path leaf ∨ incoming.HasLeaf path leaf
  names : ∀ path existing ms, base.HasObject path existing → incoming.HasObject path ms →
    ∃ merged, result.HasObject path merged ∧
      Members.keys merged = Members.keys existing ++ Members.keys (newMembers existing ms)

theorem merge_wonBy (p : Precedence) (base incoming : Value) (hd : incoming.Distinct) :
    WonBy (p.choose base incoming) (p.choose incoming base) (merge p base incoming) where
  kept _ _ := merge_stronger_leaf hd
  objects _ _ := merge_stronger_object hd
  filled _ _ := merge_weaker_leaf hd

theorem merge_madeOf (p : Precedence) (base incoming : Value) (hd : incoming.Distinct) :
    MadeOf base incoming (merge p base incoming) where
  origin _ _ := merge_leaf_origin hd
  names _ _ _ := merge_names hd

theorem merge_pathLaw (base incoming : Value) (hd : incoming.Distinct) :
    WonBy base incoming (merge .keepExisting base incoming) ∧
      WonBy incoming base (merge .takeIncoming base incoming) ∧
      ∀ p, MadeOf base incoming (merge p base incoming) :=
  ⟨merge_wonBy .keepExisting base incoming hd, merge_wonBy .takeIncoming base incoming hd,
    fun p => merge_madeOf p base incoming hd⟩

/-- What a parent says of one parameter, and what a child says of it. -/
def declared : Value :=
  .object [("type", .string "string"), ("extra", .null), ("nested", .object [("a", .int 1)])]

def inherited : Value :=
  .object [("type", .string "integer"), ("extra", .object [("unit", .string "s")]),
    ("nested", .object [("a", .int 2), ("b", .array [.int 3]), ("c", .null)])]

theorem distinct_inherited : inherited.Distinct := by decide

/-- The child's array and its object fill gaps of the parent, whose own leaf stays. -/
theorem merge_pathLaw_inherited :
    inherited.Distinct ∧
      (merge .keepExisting declared inherited).HasLeaf ["nested", "a"] (.int 1) ∧
      (merge .keepExisting declared inherited).HasLeaf ["nested", "b"] (.array [.int 3]) ∧
      (merge .keepExisting declared inherited).HasLeaf ["extra", "unit"] (.string "s") ∧
      (merge .takeIncoming declared inherited).HasLeaf ["nested", "a"] (.int 2) := by
  obtain ⟨keep, take, _⟩ := merge_pathLaw declared inherited distinct_inherited
  refine ⟨distinct_inherited, keep.kept _ _ ⟨rfl, rfl⟩, keep.filled _ _ ⟨rfl, rfl⟩ ?_ nofun,
    keep.filled _ _ ⟨rfl, rfl⟩ ?_ nofun, take.kept _ _ ⟨rfl, rfl⟩⟩
  · exact open_cons_iff.mpr ⟨rfl, open_cons_iff.mpr ⟨rfl, open_nil_iff.mpr rfl⟩⟩
  · exact open_cons_iff.mpr ⟨rfl, open_cons_iff.mpr ⟨rfl, open_nil_iff.mpr rfl⟩⟩

end CommandContract.Value
