import Mathlib
import CommandContract.Proofs.Command.Codec
import CommandContract.Proofs.Manifest.Load

set_option autoImplicit false

/-!
# What a loaded manifest holds

`DescriptorTree.Holds` says which commands the merged form of a tree has, whose values they have and
where its metadata comes from, `DescriptorTree.Gives` what is left of that in a manifest. Both hold
of whatever a tree of files describes: `RawManifest.loadTree_law`.
-/
namespace CommandContract

open RawManifest (qualified)
open Descriptor (readOrEmpty)

namespace Members

variable {α β : Type}

/-- Members that are changed by name, or left out. -/
theorem get?_filterMap (f : String → α → Option β) (name : String) {ms : Members α}
    (once : (keys ms).Nodup) :
    get? name (ms.filterMap fun m => (f m.1 m.2).map fun v => (m.1, v)) =
      (get? name ms).bind (f name) := by
  induction ms with
  | nil => rfl
  | cons head rest ih =>
    obtain ⟨k, v⟩ := head
    rw [keys_cons, List.nodup_cons] at once
    have below := ih once.2
    rw [List.filterMap_cons]
    by_cases hk : k = name
    · subst hk
      rw [(get?_eq_none_iff k rest).mpr once.1, Option.bind_none] at below
      cases hf : f k v with
      | none => simp [hf, below, get?]
      | some w => simp [hf, get?]
    · cases f k v <;> simp [below, get?, hk]

end Members

namespace RawManifest

variable {raw : RawManifest} {root project name key : String} {v leaf : Value}
  {path : List String}

/-! ## Manifests of merged forms -/

theorem commandOf?_name {c : CommandSpec} (h : commandOf? project name v = some c) :
    c.name = name := by
  cases v with
  | object ms =>
    obtain ⟨d, hd, rfl⟩ := Option.map_eq_some_iff.mp h
    have named := (CommandSpec.ofMembers?_eq_some_iff.mp hd).name_eq
    split <;> exact named
  | _ => cases h

/-- A command is there if its merged form can be read, whatever becomes of the others. -/
theorem get?_build (sound : raw.Sound) (root project name : String) :
    (raw.build root project).get? name =
      (Members.get? name raw.commands).bind (commandOf? project name) :=
  Members.get?_filterMap (commandOf? project) name sound.commands.distinct.once

theorem text?_eq_some_iff {text : String} :
    raw.text? key = some text ↔ (Value.object raw.metadata).HasLeaf [key] (.string text) := by
  rw [text?, Option.bind_eq_some_iff]
  constructor
  · rintro ⟨v, hv, hs⟩
    cases v with
    | string s =>
      cases hs
      refine ⟨?_, rfl⟩
      simp [Value.at?, Value.member?, hv]
    | _ => cases hs
  · rintro ⟨h, _⟩
    simp [Value.at?, Value.member?] at h
    exact ⟨_, h, rfl⟩

theorem hasLeaf_stateDefaults
    (h : (Value.object raw.metadata).HasLeaf ("stateDefaults" :: key :: path) leaf) :
    (Value.object (raw.build root project).stateDefaults).HasLeaf (key :: path) leaf := by
  rw [Value.hasLeaf_cons_iff, Value.part, Value.member?] at h
  rw [build]
  cases hd : Members.get? "stateDefaults" raw.metadata with
  | none =>
    rw [hd] at h
    exact absurd h Value.not_hasLeaf_null
  | some defaults =>
    rw [hd] at h
    cases defaults with
    | object ms => exact h
    | _ => exact absurd (Value.hasLeaf_cons_iff.mp h) Value.not_hasLeaf_null

end RawManifest

namespace DescriptorTree

structure Holds (t : DescriptorTree) (raw : RawManifest) : Prop where
  names : ∀ name, name ∈ Members.keys raw.commands ↔ t.Named name
  /-- Only a target that has the command and something in place of a value takes it away. -/
  own : ∀ name path leaf, (Value.object t.own.commands).HasLeaf (name :: path) leaf →
    (∀ c ∈ t.targets, ∀ x, name = qualified c.1 x →
      ((Value.object c.2.merged.commands).part x).Spares path) →
    (Value.object raw.commands).HasLeaf (name :: path) leaf
  target : ∀ before label s after name path leaf, t.targets = before ++ (label, s) :: after →
    (Value.object s.merged.commands).HasLeaf (name :: path) leaf →
    (∀ c ∈ after, ∀ x, c.2.Named x → qualified label name ≠ qualified c.1 x) →
    (Value.object raw.commands).HasLeaf (qualified label name :: path) leaf
  metadata : ∀ path leaf, (Value.object t.own.metadata).HasLeaf path leaf →
    (Value.object raw.metadata).HasLeaf path leaf
  /-- Targets have a say in the state defaults only. -/
  declared : ∀ key path leaf, key ≠ "stateDefaults" →
    (Value.object raw.metadata).HasLeaf (key :: path) leaf → t.Declares (key :: path) leaf

/-- A manifest that is built of what a tree is merged to. -/
structure Gives (t : DescriptorTree) (root project : String) (m : Manifest) : Prop where
  commands : ∀ name, m.get? name =
    (Members.get? name t.merged.commands).bind (RawManifest.commandOf? project name)
  named : ∀ name c, m.get? name = some c → c.name = name ∧ t.Named name
  name : t.Declares ["name"] (.string m.name) ∨ m.name = (Path.fileName? root).getD "carapace"
  version : t.Declares ["version"] (.string m.version) ∨ m.version = "0.0.0"
  description : ∀ text, m.description = some text → t.Declares ["description"] (.string text)
  prompt : ∀ text, m.prompt = some text → t.Declares ["prompt"] (.string text)
  stateDefaults : ∀ key path leaf,
    (Value.object t.own.metadata).HasLeaf ("stateDefaults" :: key :: path) leaf →
    (Value.object m.stateDefaults).HasLeaf (key :: path) leaf

variable {t : DescriptorTree}

theorem merged_holds (t : DescriptorTree) : t.Holds t.merged where
  names := t.mem_keys_merged_iff
  own _ _ _ := merged_own
  target _ _ _ _ _ _ _ := merged_target
  metadata _ _ := merged_metadata_own
  declared _ _ _ := declares_of_merged

theorem declares_of_text? {key text : String} (other : key ≠ "stateDefaults")
    (h : t.merged.text? key = some text) : t.Declares [key] (.string text) :=
  declares_of_merged other (RawManifest.text?_eq_some_iff.mp h)

/-- A text of the metadata that has a default. -/
theorem declares_or_default {key : String} (other : key ≠ "stateDefaults") (default : String) :
    t.Declares [key] (.string ((t.merged.text? key).getD default)) ∨
      (t.merged.text? key).getD default = default := by
  cases h : t.merged.text? key with
  | none => exact .inr rfl
  | some text => exact .inl (declares_of_text? other h)

theorem merged_gives (t : DescriptorTree) (root project : String) :
    t.Gives root project (t.merged.build root project) where
  commands := RawManifest.get?_build t.merged_sound root project
  named := by
    intro name c h
    rw [RawManifest.get?_build t.merged_sound] at h
    obtain ⟨v, hv, hc⟩ := Option.bind_eq_some_iff.mp h
    refine ⟨RawManifest.commandOf?_name hc, (t.mem_keys_merged_iff name).mp ?_⟩
    exact List.mem_map_of_mem (Members.mem_of_get? hv)
  name := declares_or_default (by decide) _
  version := declares_or_default (by decide) _
  description _ := declares_of_text? (by decide)
  prompt _ := declares_of_text? (by decide)
  stateDefaults _ _ _ h := RawManifest.hasLeaf_stateDefaults (merged_metadata_own h)

end DescriptorTree

namespace RawManifest

variable {files : FileTree} {visiting : List Location} {location : Location} {t : DescriptorTree}

theorem loadTree_law (h : Describes files visiting location t) :
    (∀ fuel, t.depth ≤ fuel → loadTree files fuel visiting location = .ok t.merged) ∧
      (files.Reached location → t.depth ≤ files.height + 1) ∧
      t.Holds t.merged ∧ ∀ root project, t.Gives root project (t.merged.build root project) := by
  refine ⟨fun fuel => loadTree_eq fuel h, fun reached => ?_, t.merged_holds, t.merged_gives⟩
  have deep := depth_le h reached
  omega

theorem composeCommands_eq {files : FileTree} {directory : String} {ms : Members Value}
    (h : readOrEmpty files directory .commands = .ok ms)
    (others : ∀ file, file ≠ .contract → file ≠ .commands →
      readOrEmpty files directory file = .ok []) :
    composeCommands files directory = .ok (composeFile [] .commands ms) := by
  have runtime := others .runtime nofun nofun
  have help := others .help nofun nofun
  have routes := others .routes nofun nofun
  simp [composeCommands, commandFiles, h, runtime, help, routes, Except.map, bind, Except.bind,
    pure, Except.pure, composeFile]

/-- A directory whose source and whose target have a command of the same name. -/
def layered : FileTree where
  entries :=
    [(["contract.json"], .ofText
        "\x7b\"sources\": \x7b\"s\": \"s\"\x7d, \"targets\": \x7b\"a\": \"a\"\x7d\x7d" false),
      (["s"], .directory),
      (["s", "commands.json"], .ofText "\x7b\"x\": \x7b\"source\": \"s\"\x7d\x7d" false),
      (["a"], .directory),
      (["a", "commands.json"], .ofText "\x7b\"x\": \x7b\"source\": \"a\"\x7d\x7d" false)]
  workingDirectory := []

theorem layered_missing (directory : Location) {file : DescriptorFile}
    (hd : directory ∈ [[], ["s"], ["a"]])
    (hf : file ≠ if directory = [] then .contract else .commands) :
    readOrEmpty layered directory.text file = .ok [] := by
  have missing : ∀ d ∈ [[], ["s"], ["a"]], ∀ f ∈ DescriptorFile.all,
      (f ≠ if d = [] then .contract else .commands) →
        FileTree.IsPlain (Path.join (Location.text d) f.fileName) ∧
          layered.walkAll (Path.join (Location.text d) f.fileName) = .error .notFound := by decide
  obtain ⟨plain, walked⟩ := missing directory hd file (by cases file <;> decide) hf
  exact Descriptor.readOrEmpty_missing ((FileTree.locate_eq_walkAll plain).trans walked)

theorem layered_contract : readOrEmpty layered (Location.text []) .contract =
    .ok [("sources", .object [("s", .string "s")]), ("targets", .object [("a", .string "a")])] :=
  Descriptor.readOrEmpty_present ((FileTree.locate_eq_walkAll (by decide)).trans (by rfl)) rfl
    (by cbv) (by cbv) (by cbv)

theorem layered_source : readOrEmpty layered (Location.text ["s"]) .commands =
    .ok [("x", .object [("source", .string "s")])] :=
  Descriptor.readOrEmpty_present ((FileTree.locate_eq_walkAll (by decide)).trans (by rfl)) rfl
    (by cbv) (by cbv) (by cbv)

theorem layered_target : readOrEmpty layered (Location.text ["a"]) .commands =
    .ok [("x", .object [("source", .string "a")])] :=
  Descriptor.readOrEmpty_present ((FileTree.locate_eq_walkAll (by decide)).trans (by rfl)) rfl
    (by cbv) (by cbv) (by cbv)

theorem layered_follow {name : String} (h : name ∈ ["s", "a"]) :
    followLink layered [[]] [] name = .ok [name] := by
  have top : layered.canonical (Location.text []) = .ok [] :=
    (FileTree.canonical_eq_walkAll (by decide)).trans (by rfl)
  have below : ∀ n ∈ ["s", "a"], FileTree.IsPlain (Path.join (Location.text []) n) ∧
      layered.walkAll (Path.join (Location.text []) n) = .ok [n] ∧ Path.isAbsolute n = false ∧
      Descriptor.escapesFrom 0 (Path.components n) = false ∧
      layered.entry? [n] = some .directory := by decide
  have visible : name.isBlankText = false := by
    rcases List.mem_pair.mp h with rfl | rfl <;> cbv
  obtain ⟨plain, walked, relative, inside, found⟩ := below name h
  have led := (FileTree.canonical_eq_walkAll plain).trans walked
  simp [followLink, Descriptor.resolveLink, visible, relative, inside, top, led, found,
    bind, Except.bind]

/-- A directory that has commands and nothing else. -/
theorem describes_leaf {files : FileTree} (visiting : List Location) {location : Location}
    {ms : Members Value} (h : readOrEmpty files location.text .commands = .ok ms)
    (others : ∀ file, file ≠ .commands → readOrEmpty files location.text file = .ok []) :
    ∃ t, Describes files visiting location t ∧
      ∀ name ∈ Members.keys (composeFile [] .commands ms), t.Named name :=
  ⟨_, .node (others .contract nofun) (composeCommands_eq h fun file _ hf => others file hf)
    (.nil _ _) (.nil _ _), fun _ hn => .own hn⟩

theorem describes_layered : ∃ t, Describes layered [] [] t ∧ t.Named "x" ∧ t.Named "a/x" := by
  obtain ⟨source, hs, named⟩ := describes_leaf [[]] layered_source
    fun _ => layered_missing ["s"] (by decide)
  obtain ⟨target, ht, below⟩ := describes_leaf [[]] layered_target
    fun _ => layered_missing ["a"] (by decide)
  have toSources : Leads layered [[]] [] [("s", "s")] [("s", source)] :=
    .cons (layered_follow (by decide)) hs (.nil _ _)
  have toTargets : Leads layered [[]] [] [("a", "a")] [("a", target)] :=
    .cons (layered_follow (by decide)) ht (.nil _ _)
  have composed : composeCommands layered (Location.text []) = .ok [] :=
    composeCommands_eq (layered_missing [] (by decide) nofun)
      fun _ hf _ => layered_missing [] (by decide) hf
  have nested : qualified "a" "x" = "a/x" := by decide
  refine ⟨_, .node layered_contract composed toSources toTargets, ?_, ?_⟩
  · exact .source List.mem_cons_self (named "x" (by decide))
  · rw [← nested]
    exact .target List.mem_cons_self (below "x" (by decide))

theorem loadTree_law_layered : ∃ t, Describes layered [] [] t ∧ t.Named "x" ∧ t.Named "a/x" ∧
    (∀ fuel, t.depth ≤ fuel → loadTree layered fuel [] [] = .ok t.merged) ∧
      (layered.Reached [] → t.depth ≤ layered.height + 1) ∧
      t.Holds t.merged ∧ ∀ root project, t.Gives root project (t.merged.build root project) := by
  obtain ⟨t, h, plain, nested⟩ := describes_layered
  exact ⟨t, h, plain, nested, loadTree_law h⟩

end RawManifest

end CommandContract
