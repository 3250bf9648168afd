import CommandContract.Proofs.Manifest.Merge

set_option autoImplicit false

/-!
# Descriptor trees

A directory, what its own files say, and the directories that it links to as sources and as targets,
to any depth. `DescriptorTree.merged` is what all of it is merged to. Its names are those that
`DescriptorTree.Named` lists, and what a directory itself declares outlives all of its sources.
-/
namespace CommandContract

open RawManifest (qualified)

inductive DescriptorTree where
  | node (own : RawManifest) (sound : own.Sound)
      (sources targets : List (String × DescriptorTree))

namespace DescriptorTree

def own : DescriptorTree → RawManifest
  | node own _ _ _ => own

def sources : DescriptorTree → List (String × DescriptorTree)
  | node _ _ sources _ => sources

def targets : DescriptorTree → List (String × DescriptorTree)
  | node _ _ _ targets => targets

theorem own_sound : ∀ t : DescriptorTree, t.own.Sound
  | node _ sound _ _ => sound

mutual

/-- Sources are merged first, then targets. -/
def merged : DescriptorTree → RawManifest
  | node own _ sources targets => (own.sourced (mergedAll sources)).targeted (mergedAll targets)

def mergedAll : List (String × DescriptorTree) → List (String × RawManifest)
  | [] => []
  | (label, t) :: rest => (label, merged t) :: mergedAll rest

end

mutual

/-- The directories on the longest way down. -/
def depth : DescriptorTree → Nat
  | node _ _ sources targets => max (depthAll sources) (depthAll targets) + 1

def depthAll : List (String × DescriptorTree) → Nat
  | [] => 0
  | (_, t) :: rest => max (depth t) (depthAll rest)

end

variable {t s : DescriptorTree} {label name : String} {path : List String} {leaf : Value}

theorem mergedAll_eq_map (children : List (String × DescriptorTree)) :
    mergedAll children = children.map fun c => (c.1, c.2.merged) := by
  induction children with
  | nil => rfl
  | cons c children ih => rw [mergedAll, ih, List.map_cons]

theorem merged_eq (t : DescriptorTree) :
    t.merged = (t.own.sourced (t.sources.map fun c => (c.1, c.2.merged))).targeted
      (t.targets.map fun c => (c.1, c.2.merged)) := by
  cases t with
  | node own sound sources targets =>
    rw [merged, mergedAll_eq_map, mergedAll_eq_map]
    rfl

mutual

/-- A property holds of all trees if it holds of one whose sources and targets have it. Children
stand in lists, so this takes the place of the recursor. -/
theorem induct {motive : DescriptorTree → Prop}
    (node : ∀ t : DescriptorTree, (∀ c ∈ t.sources, motive c.2) → (∀ c ∈ t.targets, motive c.2) →
      motive t) : ∀ t, motive t
  | .node own sound sources targets =>
    node (.node own sound sources targets) (inductAll node sources) (inductAll node targets)

theorem inductAll {motive : DescriptorTree → Prop}
    (node : ∀ t : DescriptorTree, (∀ c ∈ t.sources, motive c.2) → (∀ c ∈ t.targets, motive c.2) →
      motive t) : ∀ children : List (String × DescriptorTree), ∀ c ∈ children, motive c.2
  | [] => nofun
  | (_, t) :: rest => List.forall_mem_cons.mpr ⟨induct node t, inductAll node rest⟩

end

/-- The names that the commands of a tree have: a source's names stay, a target's stand under its
namespace. -/
inductive Named : DescriptorTree → String → Prop
  | own {t : DescriptorTree} {name : String} (h : name ∈ Members.keys t.own.commands) : Named t name
  | source {t s : DescriptorTree} {label name : String} (h : (label, s) ∈ t.sources)
      (below : Named s name) : Named t name
  | target {t s : DescriptorTree} {label name : String} (h : (label, s) ∈ t.targets)
      (below : Named s name) : Named t (qualified label name)

/-- The leaves of the metadata of a directory and of the sources below it. -/
inductive Declares : DescriptorTree → List String → Value → Prop
  | own {t : DescriptorTree} {path : List String} {leaf : Value}
      (h : (Value.object t.own.metadata).HasLeaf path leaf) : Declares t path leaf
  | source {t s : DescriptorTree} {label : String} {path : List String} {leaf : Value}
      (h : (label, s) ∈ t.sources) (below : Declares s path leaf) : Declares t path leaf

/-! ## What a tree is merged to -/

theorem merged_sound (t : DescriptorTree) : t.merged.Sound := by
  induction t using induct with
  | node t sources targets =>
    rw [merged_eq]
    refine (t.own_sound.sourced ?_).targeted ?_
    · exact List.forall_mem_map.mpr sources
    · exact List.forall_mem_map.mpr targets

theorem sound_children (children : List (String × DescriptorTree)) :
    ∀ c ∈ children.map fun c => (c.1, c.2.merged), c.2.Sound :=
  List.forall_mem_map.mpr fun c _ => c.2.merged_sound

theorem mem_keys_merged_iff_of (sources : ∀ c ∈ t.sources, ∀ name,
      name ∈ Members.keys c.2.merged.commands ↔ c.2.Named name)
    (targets : ∀ c ∈ t.targets, ∀ name,
      name ∈ Members.keys c.2.merged.commands ↔ c.2.Named name) :
    name ∈ Members.keys t.merged.commands ↔ t.Named name := by
  rw [merged_eq, RawManifest.mem_keys_targeted (sound_children _),
    RawManifest.mem_keys_sourced (sound_children _)]
  constructor
  · rintro ((h | ⟨_, hc, h⟩) | ⟨_, hc, x, hx, rfl⟩)
    · exact .own h
    · obtain ⟨c, hm, rfl⟩ := List.mem_map.mp hc
      exact .source hm ((sources c hm name).mp h)
    · obtain ⟨c, hm, rfl⟩ := List.mem_map.mp hc
      exact .target hm ((targets c hm x).mp hx)
  · intro h
    cases h with
    | own h => exact .inl (.inl h)
    | source h below =>
      exact .inl (.inr ⟨_, List.mem_map_of_mem h, (sources _ h name).mpr below⟩)
    | target h below =>
      exact .inr ⟨_, List.mem_map_of_mem h, _, (targets _ h _).mpr below, rfl⟩

theorem mem_keys_merged_iff (t : DescriptorTree) (name : String) :
    name ∈ Members.keys t.merged.commands ↔ t.Named name := by
  induction t using induct generalizing name with
  | node t sources targets => exact mem_keys_merged_iff_of sources targets

theorem merged_own (h : (Value.object t.own.commands).HasLeaf (name :: path) leaf)
    (spares : ∀ c ∈ t.targets, ∀ x, name = qualified c.1 x →
      ((Value.object c.2.merged.commands).part x).Spares path) :
    (Value.object t.merged.commands).HasLeaf (name :: path) leaf := by
  rw [merged_eq]
  refine RawManifest.targeted_keeps (sound_children _)
    (RawManifest.sourced_keeps (sound_children _) h) ?_
  exact List.forall_mem_map.mpr spares

theorem merged_target {before after : List (String × DescriptorTree)}
    (split : t.targets = before ++ (label, s) :: after)
    (h : (Value.object s.merged.commands).HasLeaf (name :: path) leaf)
    (last : ∀ c ∈ after, ∀ x, c.2.Named x → qualified label name ≠ qualified c.1 x) :
    (Value.object t.merged.commands).HasLeaf (qualified label name :: path) leaf := by
  rw [merged_eq, split, List.map_append, List.map_cons]
  refine RawManifest.targeted_gives (c := (label, s.merged)) ?_ h ?_
  · have children := sound_children t.targets
    rw [split, List.map_append, List.map_cons] at children
    exact children
  · refine List.forall_mem_map.mpr fun c hc x hx => last c hc x ?_
    exact (mem_keys_merged_iff c.2 x).mp hx

theorem merged_metadata_own (h : (Value.object t.own.metadata).HasLeaf path leaf) :
    (Value.object t.merged.metadata).HasLeaf path leaf := by
  rw [merged_eq]
  exact RawManifest.targeted_metadata_keeps (sound_children _)
    (RawManifest.sourced_metadata_keeps (sound_children _) h)

theorem declares_of_merged {key : String} (other : key ≠ "stateDefaults")
    (h : (Value.object t.merged.metadata).HasLeaf (key :: path) leaf) :
    t.Declares (key :: path) leaf := by
  induction t using induct with
  | node t sources _ =>
    rw [merged_eq, Value.hasLeaf_cons_iff, RawManifest.targeted_metadata_part _ _ other,
      ← Value.hasLeaf_cons_iff] at h
    rcases RawManifest.sourced_metadata_origin (sound_children _) h with h | ⟨_, hc, h⟩
    · exact .own h
    · obtain ⟨c, hm, rfl⟩ := List.mem_map.mp hc
      exact .source hm (sources c hm h)

end DescriptorTree

end CommandContract
