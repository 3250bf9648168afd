import Mathlib
import CommandContract.Chain.Next
import CommandContract.Proofs.Manifest.Law
import CommandContract.Proofs.Text.Pieces

set_option autoImplicit false

/-!
# Chains under a namespace

A tree that is a target of another one brings its commands along under a namespace, and their rules
as they are written. A rule then resolves to the command it resolved to before, unless it strays: it
stands in a namespace below and gives the full name of a command. `mount_preserves_chains` says this
of single names, of the calls that follow a command, and of trees.
-/
namespace CommandContract

open RawManifest (qualified qualified_injective)

/-! ## Namespaces of qualified names -/

theorem qualified_assoc (outer inner name : String) :
    qualified (qualified outer inner) name = qualified outer (qualified inner name) := by
  simp only [qualified, String.append_assoc]

theorem qualified_ne (nspace name : String) : qualified nspace name ≠ name := by
  intro h
  have lengths := congrArg String.length h
  simp only [qualified, String.length_append] at lengths
  have slash : "/".length = 1 := by decide
  omega

namespace CommandSpec

/-- The names that the rules of a command give. -/
def targets (c : CommandSpec) : List String := Members.keys (c.next.getD [])

/-- The second command is the first one under a namespace, with the same rules. -/
structure Mounted (nspace : String) (c d : CommandSpec) : Prop where
  name : d.name = qualified nspace c.name
  next : d.next = c.next

variable {nspace : String} {c d : CommandSpec}

theorem Mounted.targets (h : c.Mounted nspace d) : d.targets = c.targets := by
  rw [CommandSpec.targets, CommandSpec.targets, h.next]

theorem Mounted.namespace? (h : c.Mounted nspace d) :
    d.namespace? = some ((c.namespace?.map (qualified nspace)).getD nspace) := by
  have back : d.name.toList.reverse = c.name.toList.reverse ++ '/' :: nspace.toList.reverse := by
    simp [h.name, qualified]
  rw [CommandSpec.namespace?, CommandSpec.namespace?, cutName?, cutName?, back]
  cases cut : Text.cutAt? '/' c.name.toList.reverse with
  | none =>
    rw [Text.cutAt?_append_cons (Text.not_mem_of_cutAt?_eq_none cut)]
    simp
  | some found =>
    obtain ⟨last, before⟩ := found
    rw [Text.cutAt?_append cut]
    simp [qualified, String.ofList_append, String.append_assoc]

end CommandSpec

/-! ## Names -/

/-- One manifest holds the commands of another one under a namespace and no others there, and none
under a name that a rule of theirs gives. -/
structure Manifest.Mounts (inner outer : Manifest) (nspace : String) : Prop where
  held : ∀ name c, inner.get? name = some c →
    ∃ d, outer.get? (qualified nspace name) = some d ∧ c.Mounted nspace d
  only : ∀ name, outer.has (qualified nspace name) = true → inner.has name = true
  free : ∀ name c, inner.get? name = some c → ∀ target ∈ c.targets, outer.has target = false

/-- A name if a command stands under it. -/
def Manifest.held? (m : Manifest) (name : String) : Option String :=
  if m.has name then some name else none

theorem Manifest.Mounts.has {inner outer : Manifest} {nspace : String}
    (h : inner.Mounts outer nspace) (name : String) :
    outer.has (qualified nspace name) = inner.has name := by
  refine Bool.eq_iff_iff.mpr ⟨h.only name, fun present => ?_⟩
  obtain ⟨c, hc⟩ := Option.isSome_iff_exists.mp present
  obtain ⟨d, hd, -⟩ := h.held name c hc
  exact Option.isSome_iff_exists.mpr ⟨d, hd⟩

/-- The same call under a namespace. -/
def Call.under (nspace : String) (call : Call) : Call :=
  { call with name := qualified nspace call.name }

namespace Chain

/-- A rule of a command in a namespace gives the full name of a command. -/
def Strays (m : Manifest) (c : CommandSpec) (target : String) : Prop :=
  c.namespace? ≠ none ∧ m.has target = true

/-- A name taken in the namespace of the command that gives it, and nowhere else. -/
def resolveWithin? (m : Manifest) (c : CommandSpec) (target : String) : Option String :=
  m.held? ((c.namespace?.map (qualified · target)).getD target)

section Resolution

variable {inner outer : Manifest} {nspace target : String} {c d : CommandSpec}

theorem resolveName?_eq_within (h : ¬ Strays inner c target) :
    resolveName? inner c target = resolveWithin? inner c target := by
  rw [resolveName?, resolveWithin?]
  cases within : c.namespace? with
  | none => rfl
  | some p =>
    have absent : ¬ inner.has target = true := fun present =>
      h ⟨within ▸ Option.some_ne_none p, present⟩
    rw [if_neg absent]
    rfl

theorem resolveName?_strays (h : Strays inner c target) :
    resolveName? inner c target = some target := by
  rw [resolveName?, if_pos h.2]

/-- Where a rule strays to is in no namespace of its own. -/
theorem resolveWithin?_ne (h : Strays inner c target) :
    resolveWithin? inner c target ≠ some target := by
  obtain ⟨p, within⟩ := Option.ne_none_iff_exists'.mp h.1
  rw [resolveWithin?, within, Manifest.held?]
  intro found
  split at found
  · exact qualified_ne p target (Option.some.inj found)
  · cases found

/-- Under a namespace names are resolved within it. -/
theorem resolveName?_mounted (free : outer.has target = false)
    (has : ∀ name, outer.has (qualified nspace name) = inner.has name) (h : c.Mounted nspace d) :
    resolveName? outer d target = (resolveWithin? inner c target).map (qualified nspace) := by
  have moved : ∀ name, outer.held? (qualified nspace name) =
      (inner.held? name).map (qualified nspace) := by
    intro name
    rw [Manifest.held?, Manifest.held?, has]
    split <;> rfl
  have tried : resolveName? outer d target =
      outer.held? (qualified ((c.namespace?.map (qualified nspace)).getD nspace) target) := by
    rw [resolveName?, if_neg (Bool.eq_false_iff.mp free), h.namespace?]
    rfl
  rw [tried, resolveWithin?]
  cases c.namespace? with
  | none => exact moved target
  | some p => exact (congrArg outer.held? (qualified_assoc nspace p target)).trans (moved _)

theorem resolveName?_mounted_iff (free : outer.has target = false)
    (has : ∀ name, outer.has (qualified nspace name) = inner.has name) (h : c.Mounted nspace d) :
    resolveName? outer d target = (resolveName? inner c target).map (qualified nspace) ↔
      ¬ Strays inner c target := by
  rw [resolveName?_mounted free has h]
  constructor
  · intro same strays
    have within := Option.map_injective (qualified_injective nspace) same
    rw [resolveName?_strays strays] at within
    exact resolveWithin?_ne strays within
  · intro stays
    rw [resolveName?_eq_within stays]

end Resolution

/-! ## Calls -/

section Rules

variable {inner outer : Manifest} {nspace : String} {c d : CommandSpec}

theorem callOf_mounted {target : String}
    (same : resolveName? outer d target = (resolveName? inner c target).map (qualified nspace))
    (context : Value) (r : NextRule) : callOf outer d context target r =
      (callOf inner c context target r).map (Call.under nspace) := by
  rw [callOf, callOf, same]
  cases resolveName? inner c target with
  | none => rfl
  | some name =>
    dsimp only [Option.map_some]
    cases Template.renderMembers context r.arguments <;> rfl

theorem firstRule_mounted (context : Value) {rules : List (String × NextRule)}
    (same : ∀ target ∈ Members.keys rules,
      resolveName? outer d target = (resolveName? inner c target).map (qualified nspace)) :
    firstRule outer d context rules =
      (firstRule inner c context rules).map (Option.map (Call.under nspace)) := by
  induction rules with
  | nil => rfl
  | cons rule rules ih =>
    obtain ⟨target, r⟩ := rule
    rw [Members.keys_cons, List.forall_mem_cons] at same
    rw [firstRule, firstRule]
    cases applies context r with
    | error e => rfl
    | ok holds =>
      cases holds with
      | false => exact ih same.2
      | true =>
        dsimp only
        rw [callOf_mounted same.1]
        cases callOf inner c context target r <;> rfl

/-- Commands whose rules do not stray are followed by the same calls, under the namespace. -/
theorem next_mounted (free : ∀ target ∈ c.targets, outer.has target = false)
    (has : ∀ name, outer.has (qualified nspace name) = inner.has name) (h : c.Mounted nspace d)
    (stays : ∀ target ∈ c.targets, ¬ Strays inner c target) (context : Value) :
    next outer d context = (next inner c context).map (Option.map (Call.under nspace)) := by
  rw [next, next, h.next]
  exact firstRule_mounted context fun target ht =>
    (resolveName?_mounted_iff (free target ht) has h).mpr (stays target ht)

end Rules

end Chain

/-! ## Trees -/

namespace RawManifest

variable {parent child raw : RawManifest} {nspace key : String} {v : Value}

/-- A command that can be read can be read under another name and in another project, with the
same rules. -/
theorem commandOf?_rename {project name : String} {c : CommandSpec}
    (h : commandOf? project name v = some c) (elsewhere other : String) :
    ∃ d, commandOf? elsewhere other v = some d ∧ d.name = other ∧ d.next = c.next := by
  cases v with
  | object ms =>
    obtain ⟨found, read, rfl⟩ := Option.map_eq_some_iff.mp h
    have moved : CommandSpec.ofMembers? (Members.put "name" (.string other) ms) =
        some { found with name := other } :=
      CommandSpec.ofMembers?_eq_some_iff.mpr
        ((CommandSpec.ofMembers?_eq_some_iff.mp read).renamed other)
    refine ⟨_, Option.map_eq_some_iff.mpr ⟨_, moved, rfl⟩, ?_, ?_⟩
    · dsimp only
      split <;> rfl
    · dsimp only
      split <;> rfl
  | _ => cases h

/-! ### What a target leaves under its namespace -/

theorem get?_mergeTarget (h : child.Sound) :
    Members.get? key (mergeTarget parent child nspace).commands =
      Value.mergeMember? .takeIncoming (Members.get? key parent.commands)
        (Members.get? key (renamed (qualified nspace) child.commands)) := by
  have merged : (mergeTarget parent child nspace).commands =
      Value.mergeMembers .takeIncoming parent.commands (renamed (qualified nspace) child.commands) :=
    mergeCommands_eq _ _ _ h.commands.ne_null
  rw [merged, Value.get?_mergeMembers _ _ _ (distinct_target h nspace).once]

/-- A target adds no command to the names that it has none for. -/
theorem get?_mergeTarget_of_absent (h : child.Sound)
    (absent : ∀ name ∈ Members.keys child.commands, qualified nspace name ≠ key) :
    Members.get? key (mergeTarget parent child nspace).commands =
      Members.get? key parent.commands := by
  have none : Members.get? key (renamed (qualified nspace) child.commands) = none := by
    rw [Members.get?_eq_none_iff, keys_renamed, List.mem_map]
    rintro ⟨name, hn, same⟩
    exact absent name hn same
  rw [get?_mergeTarget h, none]
  cases Members.get? key parent.commands <;> rfl

/-- Where no command stood, a target's command comes in as it is. -/
theorem get?_mergeTarget_of_new (h : child.Sound) {name : String}
    (new : Members.get? (qualified nspace name) parent.commands = none) :
    Members.get? (qualified nspace name) (mergeTarget parent child nspace).commands =
      Members.get? name child.commands := by
  rw [get?_mergeTarget h, new, get?_renamed (qualified_injective nspace)]
  cases found : Members.get? name child.commands with
  | none => rfl
  | some v =>
    have present := h.commands.ne_null _ (Members.mem_of_get? found)
    have kept : v.isNull = false := by
      rw [← Bool.not_eq_true, Value.isNull_eq_true_iff]
      exact present
    simp [Value.mergeMember?, kept]

theorem get?_targeted_of_absent {children : List (String × RawManifest)}
    (hc : ∀ c ∈ children, c.2.Sound)
    (absent : ∀ c ∈ children, ∀ name ∈ Members.keys c.2.commands, qualified c.1 name ≠ key) :
    Members.get? key (raw.targeted children).commands = Members.get? key raw.commands :=
  List.foldlRecOn children (fun raw c => mergeTarget raw c.2 c.1)
    (motive := fun merged => Members.get? key merged.commands = Members.get? key raw.commands) rfl
    fun _ hm c hin => (get?_mergeTarget_of_absent (hc c hin) (absent c hin)).trans hm

end RawManifest

namespace DescriptorTree

variable {own : RawManifest} {sound : own.Sound}
  {sources before after : List (String × DescriptorTree)} {label : String} {s : DescriptorTree}

/-- The only target with commands under a label leaves them there as they are. -/
theorem get?_merged_target (alone : ∀ name,
      ¬ (node own sound sources (before ++ after)).Named (qualified label name)) (name : String) :
    Members.get? (qualified label name)
        (node own sound sources (before ++ (label, s) :: after)).merged.commands =
      Members.get? name s.merged.commands := by
  let merge := fun children : List (String × DescriptorTree) =>
    children.map fun c => (c.1, c.2.merged)
  have split : (node own sound sources (before ++ (label, s) :: after)).merged =
      (RawManifest.mergeTarget ((own.sourced (merge sources)).targeted (merge before))
        s.merged label).targeted (merge after) := by
    rw [merged_eq, targets, List.map_append, RawManifest.targeted, List.foldl_append]
    rfl
  have elsewhere : ∀ c ∈ before ++ after, ∀ x ∈ Members.keys c.2.merged.commands,
      qualified c.1 x ≠ qualified label name := by
    intro c hc x hx same
    exact alone name (same ▸ .target hc ((c.2.mem_keys_merged_iff x).mp hx))
  obtain ⟨others, later⟩ := List.forall_mem_append.mp elsewhere
  have start : Members.get? (qualified label name) (own.sourced (merge sources)).commands = none := by
    rw [Members.get?_eq_none_iff, RawManifest.mem_keys_sourced (sound_children sources)]
    rintro (h | ⟨_, hc, h⟩)
    · exact alone name (.own h)
    · obtain ⟨⟨_, source⟩, hs, rfl⟩ := List.mem_map.mp hc
      exact alone name (.source hs ((source.mem_keys_merged_iff _).mp h))
  have new : Members.get? (qualified label name)
      ((own.sourced (merge sources)).targeted (merge before)).commands = none :=
    (RawManifest.get?_targeted_of_absent (sound_children before)
      (List.forall_mem_map.mpr others)).trans start
  rw [split, RawManifest.get?_targeted_of_absent (sound_children after)
    (List.forall_mem_map.mpr later), RawManifest.get?_mergeTarget_of_new s.merged_sound new]

/-- The manifest of a tree mounts that of a target, if no one else has commands under its label and
no rule of the target gives the name of a command of the whole. -/
theorem mounts {root project innerRoot innerProject : String} (alone : ∀ name,
      ¬ (node own sound sources (before ++ after)).Named (qualified label name))
    (free : ∀ name c, (s.merged.build innerRoot innerProject).get? name = some c →
      ∀ target ∈ c.targets, ((node own sound sources (before ++ (label, s) :: after)).merged.build
        root project).has target = false) :
    (s.merged.build innerRoot innerProject).Mounts
      ((node own sound sources (before ++ (label, s) :: after)).merged.build root project) label := by
  have found : ∀ name, ((node own sound sources (before ++ (label, s) :: after)).merged.build
      root project).get? (qualified label name) = (Members.get? name s.merged.commands).bind
        (RawManifest.commandOf? project (qualified label name)) := by
    intro name
    rw [RawManifest.get?_build (merged_sound _), get?_merged_target alone]
  refine ⟨fun name c hc => ?_, fun name present => ?_, free⟩
  · rw [RawManifest.get?_build s.merged_sound] at hc
    obtain ⟨v, hv, hc⟩ := Option.bind_eq_some_iff.mp hc
    obtain ⟨d, hd, named, rules⟩ := RawManifest.commandOf?_rename hc project (qualified label name)
    refine ⟨d, ?_, ?_, rules⟩
    · rw [found, hv]
      exact hd
    · rw [RawManifest.commandOf?_name hc, named]
  · obtain ⟨d, hd⟩ := Option.isSome_iff_exists.mp present
    rw [found] at hd
    obtain ⟨v, hv, hd⟩ := Option.bind_eq_some_iff.mp hd
    obtain ⟨c, hc, -, -⟩ := RawManifest.commandOf?_rename hd innerProject name
    rw [Manifest.has, RawManifest.get?_build s.merged_sound, hv]
    exact Option.isSome_iff_exists.mpr ⟨c, hc⟩

end DescriptorTree

/-! ## Rules under a namespace -/

/-- A command resolves every name as before under a namespace exactly if its rule does not stray; a
rule that strays finds a command within the namespace or none. If no rule strays, the calls that
follow are the same under the namespace. All of this holds of a tree as a target. -/
theorem mount_preserves_chains :
    (∀ (inner outer : Manifest) (nspace : String), inner.Mounts outer nspace →
      ∀ (name : String) (c : CommandSpec), inner.get? name = some c →
        ∃ d, outer.get? (qualified nspace name) = some d ∧ d.name = qualified nspace c.name ∧
          d.targets = c.targets ∧
          (∀ target ∈ c.targets,
            (Chain.resolveName? outer d target =
                (Chain.resolveName? inner c target).map (qualified nspace) ↔
              ¬ Chain.Strays inner c target) ∧
            (Chain.Strays inner c target →
              Chain.resolveName? inner c target = some target ∧
                ∃ p, c.namespace? = some p ∧ Chain.resolveName? outer d target =
                  if inner.has (qualified p target) then
                    some (qualified nspace (qualified p target)) else none)) ∧
          ((∀ target ∈ c.targets, ¬ Chain.Strays inner c target) → ∀ context,
            Chain.next outer d context =
              (Chain.next inner c context).map (Option.map (Call.under nspace)))) ∧
    ∀ (own : RawManifest) (sound : own.Sound) (sources before : List (String × DescriptorTree))
      (label : String) (s : DescriptorTree) (after : List (String × DescriptorTree))
      (root project innerRoot innerProject : String),
      let outer := (DescriptorTree.node own sound sources
        (before ++ (label, s) :: after)).merged.build root project
      let inner := s.merged.build innerRoot innerProject
      (∀ name, ¬ (DescriptorTree.node own sound sources (before ++ after)).Named
        (qualified label name)) →
      (∀ name c, inner.get? name = some c → ∀ target ∈ c.targets, outer.has target = false) →
      inner.Mounts outer label := by
  refine ⟨fun inner outer nspace mounted name c hc => ?_, ?_⟩
  · obtain ⟨d, hd, same⟩ := mounted.held name c hc
    have free := mounted.free name c hc
    refine ⟨d, hd, same.name, same.targets, fun target ht => ⟨?_, fun strays => ⟨?_, ?_⟩⟩,
      fun stays context => ?_⟩
    · exact Chain.resolveName?_mounted_iff (free target ht) mounted.has same
    · exact Chain.resolveName?_strays strays
    · obtain ⟨p, within⟩ := Option.ne_none_iff_exists'.mp strays.1
      refine ⟨p, within, ?_⟩
      rw [Chain.resolveName?_mounted (free target ht) mounted.has same, Chain.resolveWithin?,
        within, Option.map_some, Option.getD_some, Manifest.held?]
      split <;> rfl
    · exact Chain.next_mounted free mounted.has same stays context
  · intro own sound sources before label s after root project innerRoot innerProject
    exact DescriptorTree.mounts

/-! ### A rule that strays -/

/-- Commands that have nothing but rules, each with the names that its rules give. -/
def RawManifest.ruled (commands : List (String × List String)) : RawManifest where
  metadata := []
  commands := commands.foldl (fun ms c =>
    Members.put c.1 (.object [("next",
      .object (Members.ofPairs (c.2.map fun target => (target, .object []))))]) ms) []

theorem RawManifest.sound_ruled (commands : List (String × List String)) :
    (ruled commands).Sound where
  metadata := .empty
  commands := by
    refine List.foldlRecOn commands _ Composed.nil fun ms hm c _ => hm.put ?_
    refine .object (List.nodup_singleton _) (List.forall_mem_singleton.mpr (.ofPairs fun m hm => ?_))
    obtain ⟨target, _, rfl⟩ := List.mem_map.mp hm
    exact .empty

namespace DescriptorTree

def beds : DescriptorTree :=
  .node _ (RawManifest.sound_ruled [("plant", ["prune", "water"]), ("prune", [])]) [] []

/-- A tree with a target, a rule of which gives the name of a command above it. -/
def nursery : DescriptorTree :=
  .node _ (RawManifest.sound_ruled [("water", ["beds/plant"])]) [] [("beds", beds)]

def estate : DescriptorTree :=
  .node _ (RawManifest.sound_ruled [("open", [])]) [] [("garden", nursery)]

def manifest (t : DescriptorTree) : Manifest := t.merged.build "" ""

theorem estate_alone (name : String) :
    ¬ (node _ (RawManifest.sound_ruled [("open", [])]) [] []).Named (qualified "garden" name) := by
  intro h
  generalize hn : qualified "garden" name = full at h
  cases h with
  | own h =>
    have only : full = "open" := List.mem_singleton.mp h
    rw [only, ← String.toList_inj] at hn
    simp [qualified] at hn
  | source h => cases h
  | target h => cases h

theorem estate_free (name : String) (c : CommandSpec) (h : nursery.manifest.get? name = some c) :
    ∀ target ∈ c.targets, estate.manifest.has target = false := by
  have all : ∀ m ∈ nursery.manifest.commands, ∀ target ∈ m.2.targets,
      estate.manifest.has target = false := by decide +kernel
  exact all _ (Members.mem_of_get? h)

end DescriptorTree

theorem DescriptorTree.estate_mounts : nursery.manifest.Mounts estate.manifest "garden" := by
  have alone : ∀ name, ¬ (node _ (RawManifest.sound_ruled [("open", [])]) [] ([] ++ [])).Named
      (qualified "garden" name) := estate_alone
  exact mounts alone estate_free

theorem DescriptorTree.plant_strays {c : CommandSpec}
    (h : nursery.manifest.get? "beds/plant" = some c) : c.targets = ["prune", "water"] ∧
      c.namespace? = some "beds" ∧ Chain.Strays nursery.manifest c "water" := by
  have all : ∀ m ∈ nursery.manifest.commands, m.1 = "beds/plant" →
      m.2.targets = ["prune", "water"] ∧ m.2.namespace? = some "beds" := by decide +kernel
  obtain ⟨rules, within⟩ := all _ (Members.mem_of_get? h) rfl
  exact ⟨rules, within, within ▸ Option.some_ne_none _, by decide +kernel⟩

open DescriptorTree in
/-- Within the tree alone the rule leads to the command above, and nowhere once it is a target. -/
theorem mount_loses_stray : ¬ ∀ (inner outer : Manifest) (nspace : String),
    inner.Mounts outer nspace → ∀ (name : String) (c d : CommandSpec), inner.get? name = some c →
      outer.get? (qualified nspace name) = some d → ∀ target ∈ c.targets,
        Chain.resolveName? outer d target =
          (Chain.resolveName? inner c target).map (qualified nspace) := by
  intro kept
  obtain ⟨c, hc⟩ : ∃ c, nursery.manifest.get? "beds/plant" = some c := ⟨_, rfl⟩
  obtain ⟨d, hd, same⟩ := estate_mounts.held _ _ hc
  obtain ⟨rules, -, strays⟩ := plant_strays hc
  have water : "water" ∈ c.targets := rules ▸ List.mem_cons_of_mem _ List.mem_cons_self
  have lost := kept _ _ _ estate_mounts _ _ _ hc hd "water" water
  exact (Chain.resolveName?_mounted_iff (estate_free _ _ hc _ water) estate_mounts.has same).mp
    lost strays

open DescriptorTree in
theorem mount_preserves_chains_garden :
    nursery.manifest.Mounts estate.manifest "garden" ∧
      ∃ c d, nursery.manifest.get? "beds/plant" = some c ∧
        estate.manifest.get? "garden/beds/plant" = some d ∧
        (Chain.resolveName? nursery.manifest c "prune" = some "beds/prune" ∧
          Chain.resolveName? estate.manifest d "prune" = some "garden/beds/prune") ∧
        Chain.resolveName? nursery.manifest c "water" = some "water" ∧
          Chain.resolveName? estate.manifest d "water" = none := by
  obtain ⟨preserved, targets⟩ := mount_preserves_chains
  have mounted : nursery.manifest.Mounts estate.manifest "garden" :=
    targets _ (RawManifest.sound_ruled [("open", [])]) [] [] "garden" nursery [] "" "" "" ""
      estate_alone estate_free
  obtain ⟨c, hc⟩ : ∃ c, nursery.manifest.get? "beds/plant" = some c := ⟨_, rfl⟩
  obtain ⟨d, hd, -, -, resolved, -⟩ := preserved _ _ _ mounted "beds/plant" c hc
  obtain ⟨rules, within, strays⟩ := plant_strays hc
  rw [rules, List.forall_mem_cons, List.forall_mem_singleton] at resolved
  obtain ⟨⟨prune, -⟩, -, water⟩ := resolved
  have stays : ¬ Chain.Strays nursery.manifest c "prune" := by
    rintro ⟨-, present⟩
    revert present
    decide +kernel
  have found : Chain.resolveName? nursery.manifest c "prune" = some "beds/prune" := by
    rw [Chain.resolveName?_eq_within stays, Chain.resolveWithin?, within]
    decide +kernel
  obtain ⟨here, p, hp, there⟩ := water strays
  obtain rfl : "beds" = p := Option.some.inj (within.symm.trans hp)
  refine ⟨mounted, c, d, hc, hd, ⟨found, ?_⟩, here, there.trans (by decide +kernel)⟩
  rw [prune.mpr stays, found]
  decide +kernel

end CommandContract
