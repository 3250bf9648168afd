import CommandContract.Proofs.Manifest.Undeclared
import CommandContract.Proofs.Merge.Repeated

set_option autoImplicit false

/-!
# Subtrees that are merged twice

Merging a source or a target again changes nothing, and a source changes nothing either after others
were merged, as what is there wins. So a directory that is linked to under two labels of the sources
is merged as if the later one were not declared: `RawManifest.merge_repeated`.
-/
namespace CommandContract

open Descriptor (readOrEmpty resolveLink)

namespace RawManifest

variable {p : Precedence} {rename : String → String} {parent child raw found : RawManifest}
  {name other label link : String} {spec : Value} {commands ms : Members Value}

/-! ## Commands -/

/-- What becomes of a command that comes in. -/
theorem mergeCommands_cons (p : Precedence) (rename : String → String) (commands : Members Value)
    (name : String) (spec : Value) (rest : List (String × Value)) :
    mergeCommands p rename commands ((name, spec) :: rest) =
      mergeCommands p rename (Members.put (rename name)
        (((Value.object commands).part (rename name)).merge p spec) commands) rest := by
  rw [mergeCommands, Value.part, Value.member?]
  cases Members.get? (rename name) commands with
  | none => rw [Option.getD_none, Value.merge_blank]
  | some existing => rfl

theorem get?_mergeCommands_of_ne (h : ∀ m ∈ ms, rename m.1 ≠ other) (commands : Members Value) :
    Members.get? other (mergeCommands p rename commands ms) = Members.get? other commands := by
  induction ms generalizing commands with
  | nil => rw [mergeCommands]
  | cons m ms ih =>
    rw [List.forall_mem_cons] at h
    rw [mergeCommands_cons, ih h.2, Members.get?_put_of_ne (Ne.symm h.1)]

theorem get?_mergeCommands (injective : Function.Injective rename)
    (once : (Members.keys ms).Nodup) (h : (name, spec) ∈ ms) (commands : Members Value) :
    Members.get? (rename name) (mergeCommands p rename commands ms) =
      some (((Value.object commands).part (rename name)).merge p spec) := by
  induction ms generalizing commands with
  | nil => cases h
  | cons m ms ih =>
    obtain ⟨key, v⟩ := m
    rw [Members.keys_cons, List.nodup_cons] at once
    rw [mergeCommands_cons]
    rcases List.mem_cons.mp h with first | later
    · cases first
      have others : ∀ m ∈ ms, rename m.1 ≠ rename name := by
        intro m hm same
        exact once.1 (injective same ▸ List.mem_map_of_mem (f := (·.1)) hm)
      rw [get?_mergeCommands_of_ne others, Members.get?_put_self]
    · have apart : rename name ≠ rename key := by
        intro same
        obtain rfl := injective same
        exact once.1 (List.mem_map_of_mem (f := (·.1)) later)
      rw [ih once.2 later, part_put, if_neg apart]

/-- Commands that are there with all that comes in stay as they are. -/
theorem mergeCommands_eq_self (h : ∀ m ∈ ms, ∃ existing,
      Members.get? (rename m.1) commands = some existing ∧ existing.merge p m.2 = existing) :
    mergeCommands p rename commands ms = commands := by
  induction ms with
  | nil => rw [mergeCommands]
  | cons m ms ih =>
    rw [List.forall_mem_cons] at h
    obtain ⟨⟨existing, held, same⟩, rest⟩ := h
    rw [mergeCommands_cons, Value.part, Value.member?, held, Option.getD_some, same,
      Members.put_of_get? held, ih rest]

theorem mergeCommands_again (p : Precedence) (injective : Function.Injective rename)
    (commands : Members Value) (h : Value.Distinct (.object ms)) :
    mergeCommands p rename (mergeCommands p rename commands ms) ms =
      mergeCommands p rename commands ms :=
  mergeCommands_eq_self fun _ hm =>
    ⟨_, get?_mergeCommands injective h.once hm commands, Value.merge_again p _ (h.inside hm)⟩

/-! ## One source, one target -/

/-- The names in what was read are distinct, at every depth. -/
structure WellNamed (raw : RawManifest) : Prop where
  metadata : (Value.object raw.metadata).Distinct
  commands : (Value.object raw.commands).Distinct

theorem Sound.wellNamed (h : raw.Sound) : raw.WellNamed := ⟨h.metadata, h.commands.distinct⟩

theorem eq_of_objects {raw other : RawManifest}
    (metadata : Value.object raw.metadata = .object other.metadata)
    (commands : Value.object raw.commands = .object other.commands) : raw = other := by
  cases raw
  cases other
  cases metadata
  cases commands
  rfl

theorem mergeSource_again (parent : RawManifest) (h : child.WellNamed) :
    mergeSource (mergeSource parent child) child = mergeSource parent child := by
  simp only [mergeSource, Value.mergeMembers_again _ _ h.metadata,
    mergeCommands_again _ Function.injective_id _ h.commands]

theorem mergeTarget_metadata_again (parent : RawManifest) (nspace : String)
    (h : child.WellNamed) :
    (mergeTarget (mergeTarget parent child nspace) child nspace).metadata =
      (mergeTarget parent child nspace).metadata := by
  cases given : Members.get? "stateDefaults" child.metadata with
  | none => simp only [mergeTarget, given]
  | some defaults =>
    have again := Value.merge_again .keepExisting
      ((Members.get? "stateDefaults" parent.metadata).getD (.object [])) (h.metadata.member given)
    simp only [mergeTarget, given, Members.get?_put_self, Option.getD_some, again]
    exact Members.put_of_get? (Members.get?_put_self _ _ _)

theorem mergeTarget_again (parent : RawManifest) (nspace : String) (h : child.WellNamed) :
    mergeTarget (mergeTarget parent child nspace) child nspace =
      mergeTarget parent child nspace := by
  have commands : (mergeTarget (mergeTarget parent child nspace) child nspace).commands =
      (mergeTarget parent child nspace).commands :=
    mergeCommands_again .takeIncoming (qualified_injective nspace) parent.commands h.commands
  exact eq_of_objects (congrArg _ (mergeTarget_metadata_again parent nspace h))
    (congrArg _ commands)

/-! ## Sources after other sources -/

/-- A source that changes nothing changes nothing after another one was merged. -/
theorem mergeSource_again_later (hf : found.Sound) (hc : child.Sound)
    (h : mergeSource raw found = raw) :
    mergeSource (mergeSource raw child) found = mergeSource raw child := by
  refine eq_of_objects ?_ ?_
  · rw [mergeSource_metadata, mergeSource_metadata]
    refine Value.merge_again_later hf.metadata hc.metadata ?_
    rw [← mergeSource_metadata, h]
  · rw [mergeSource_commands hf, mergeSource_commands hc]
    refine Value.merge_again_later hf.commands.distinct hc.commands.distinct ?_
    rw [← mergeSource_commands hf, h]

section Links

variable {source : String → Except LoadError RawManifest} {ls : List (String × String)}

/-- What sources are merged to, one after the other. -/
abbrev mergeSources (source : String → Except LoadError RawManifest) (raw : RawManifest)
    (ls : List (String × String)) : RawManifest :=
  mergeLinks source (fun raw _ child => mergeSource raw child) raw ls

theorem mergeSources_append (source : String → Except LoadError RawManifest) (raw : RawManifest)
    (before after : List (String × String)) :
    mergeSources source raw (before ++ after) =
      mergeSources source (mergeSources source raw before) after :=
  List.foldl_append

/-- A source that changes nothing changes nothing after any number of others. -/
theorem mergeSources_again_later (sound : ∀ link child, source link = .ok child → child.Sound)
    (hf : found.Sound) (h : mergeSource raw found = raw) (ls : List (String × String)) :
    mergeSource (mergeSources source raw ls) found = mergeSources source raw ls := by
  refine List.foldlRecOn ls _ (motive := fun raw => mergeSource raw found = raw) h ?_
  intro raw h l _
  cases loaded : source l.2 with
  | error e => exact h
  | ok child => exact mergeSource_again_later hf (sound l.2 child loaded) h

theorem mergeSources_of_mem (sound : ∀ link child, source link = .ok child → child.Sound)
    (hm : (label, link) ∈ ls) (loaded : source link = .ok found) (raw : RawManifest) :
    mergeSource (mergeSources source raw ls) found = mergeSources source raw ls := by
  have hf := sound link found loaded
  obtain ⟨before, after, rfl⟩ := List.append_of_mem hm
  have first : mergeSources source (mergeSources source raw before) ((label, link) :: after) =
      mergeSources source (mergeSource (mergeSources source raw before) found) after := by
    rw [mergeSources, mergeLinks, List.foldl_cons, loaded]
    rfl
  rw [mergeSources_append, first]
  exact mergeSources_again_later sound hf (mergeSource_again _ hf.wellNamed) after

/-- A link to what an earlier link leads to might as well not be there. -/
theorem mergeSources_repeated {before after : List (String × String)}
    (sound : ∀ link child, source link = .ok child → child.Sound)
    (repeated : ∀ child, source link = .ok child → ∃ l ∈ before, source l.2 = .ok child)
    (raw : RawManifest) :
    mergeSources source raw (before ++ (label, link) :: after) =
      mergeSources source raw (before ++ after) := by
  cases loaded : source link with
  | error e => exact mergeLinks_skip loaded _ raw before after
  | ok child =>
    obtain ⟨l, hl, first⟩ := repeated child loaded
    have same := mergeSources_of_mem sound hl first raw
    rw [mergeSources_append, mergeSources_append, mergeSources, mergeLinks, List.foldl_cons, loaded]
    dsimp only
    rw [same]
    rfl

end Links

/-! ## Loading -/

section Loading

variable {files less : FileTree} {visiting : List Location} {spot directory : Location}

theorem Sound.mergeLinks {merge : RawManifest → String → RawManifest → RawManifest}
    {source : String → Except LoadError RawManifest}
    (sound : ∀ link child, source link = .ok child → child.Sound)
    (merged : ∀ raw label child, raw.Sound → child.Sound → (merge raw label child).Sound)
    (h : raw.Sound) (ls : List (String × String)) : (mergeLinks source merge raw ls).Sound := by
  refine List.foldlRecOn ls _ h fun raw h l _ => ?_
  cases loaded : source l.2 with
  | error e => exact h
  | ok child => exact merged raw l.1 child h (sound l.2 child loaded)

theorem sound_of_loadTree {fuel : Nat} (h : loadTree files fuel visiting directory = .ok raw) :
    raw.Sound := by
  induction fuel generalizing visiting directory raw with
  | zero => cases h
  | succ fuel ih =>
    rw [loadTree_eq_loadWith] at h
    obtain ⟨contract, metadata, h⟩ := Except.bind_eq_ok_iff.mp h
    obtain ⟨commands, composed, h⟩ := Except.bind_eq_ok_iff.mp h
    cases h
    have children : ∀ link child, childOf files fuel (visiting ++ [directory]) directory link =
        .ok child → child.Sound := by
      intro link child loaded
      obtain ⟨target, -, loaded⟩ := Except.bind_eq_ok_iff.mp loaded
      exact ih loaded
    refine Sound.mergeLinks children (fun _ nspace _ hp hc => hp.mergeTarget hc nspace) ?_ _
    refine Sound.mergeLinks children (fun _ _ _ hp hc => hp.mergeSource hc) ?_ _
    exact sound_ownForm metadata composed

theorem sound_of_childOf {fuel : Nat} (link : String) (child : RawManifest)
    (h : childOf files fuel visiting directory link = .ok child) : child.Sound := by
  obtain ⟨target, -, loaded⟩ := Except.bind_eq_ok_iff.mp h
  exact sound_of_loadTree loaded

/-- Links that resolve alike lead to the same, but for how it is told that they lead nowhere. -/
theorem childOf_of_resolveLink {fuel : Nat} {first second : String}
    (same : resolveLink files directory.text second = resolveLink files directory.text first)
    (h : childOf files fuel visiting directory second = .ok found) :
    childOf files fuel visiting directory first = .ok found := by
  obtain ⟨target, followed, loaded⟩ := Except.bind_eq_ok_iff.mp h
  obtain ⟨place, resolved, unseen⟩ := Except.bind_eq_ok_iff.mp followed
  refine Except.bind_eq_ok_iff.mpr ⟨target, Except.bind_eq_ok_iff.mpr ⟨place, ?_, ?_⟩, loaded⟩
  · rw [← same, resolved]
  · split at unseen
    · cases unseen
    · rename_i apart
      rw [if_neg apart]
      exact unseen

/-- Every source that a directory declares under a label stands behind another one that resolves
alike. -/
def Repeats (files : FileTree) (spot : Location) (label : String) : Prop :=
  ∀ ms before link after, readOrEmpty files spot.text .contract = .ok ms →
    links "sources" ms = before ++ (label, link) :: after →
      ∃ l ∈ before, resolveLink files spot.text link = resolveLink files spot.text l.2

theorem mergedWith_repeated {fuel : Nat} {contract fewer : Members Value}
    (undeclared : Undeclared files less spot "sources" label) (repeats : Repeats files spot label)
    (read : readOrEmpty files spot.text .contract = .ok contract)
    (readLess : readOrEmpty less spot.text .contract = .ok fewer) (commands : Members Value) :
    mergedWith (childOf files fuel visiting spot) fewer commands =
      mergedWith (childOf files fuel visiting spot) contract commands := by
  obtain ⟨ms, members, declared, found, declaredLess⟩ := undeclared.contract
  cases read.symm.trans declared
  cases readLess.symm.trans declaredLess
  have targets := links_put_erase label found "targets"
  have sources := links_put_erase label found "sources"
  rw [mergedWith, mergedWith, ownForm_put_erase undeclared.kind]
  rcases targets with targets | ⟨kind, -⟩
  · rw [targets]
    rcases sources with sources | ⟨-, before, link, after, split, rest⟩
    · rw [sources]
    · obtain ⟨l, hl, same⟩ := repeats contract before link after read split
      have earlier : ∀ child, childOf files fuel visiting spot link = .ok child →
          ∃ l ∈ before, childOf files fuel visiting spot l.2 = .ok child :=
        fun child loaded => ⟨l, hl, childOf_of_resolveLink same loaded⟩
      have skipped : mergeSources (childOf files fuel visiting spot) (ownForm contract commands)
            (before ++ (label, link) :: after) =
          mergeSources (childOf files fuel visiting spot) (ownForm contract commands)
            (before ++ after) :=
        mergeSources_repeated sound_of_childOf earlier _
      rw [rest, split]
      exact congrArg (fun raw => RawManifest.mergeLinks _ _ raw _) skipped.symm
  · exact absurd kind (by decide)

end Loading

/-- Whatever is merged again changes nothing, and so a second label for the same source does not
either, here or further down. -/
theorem merge_repeated :
    (∀ p v, Value.Distinct v → Value.merge p v v = v) ∧
      (∀ p base incoming, Value.Distinct incoming →
        Value.merge p (Value.merge p base incoming) incoming = Value.merge p base incoming) ∧
      (∀ parent child, WellNamed child →
        mergeSource (mergeSource parent child) child = mergeSource parent child ∧
          ∀ nspace, mergeTarget (mergeTarget parent child nspace) child nspace =
            mergeTarget parent child nspace) ∧
      ∀ files less spot label, Undeclared files less spot "sources" label →
        Repeats files spot label → ∀ fuel visiting directory, files.Reached directory →
          loadTree less fuel visiting directory = loadTree files fuel visiting directory := by
  refine ⟨fun p _ hv => Value.merge_self p hv, fun p base _ hi => Value.merge_again p base hi,
    fun parent child hc => ⟨mergeSource_again parent hc, fun nspace => ?_⟩, ?_⟩
  · exact mergeTarget_again parent nspace hc
  · intro files less spot label undeclared repeats fuel visiting directory reached
    refine loadTree_undeclared (fun _ _ => True) undeclared (fun _ _ _ _ _ _ _ => trivial) ?_
      trivial reached fuel
    intro fuel visiting contract fewer commands _ _ read readLess
    exact mergedWith_repeated undeclared repeats read readLess commands

/-- A directory that declares one source twice, the second time written in another way. -/
def grove : FileTree where
  entries :=
    [(["contract.json"], .ofText
        "\x7b\"sources\": \x7b\"a\": \"s\", \"b\": \"./s\"\x7d\x7d" false),
      (["s"], .directory),
      (["s", "commands.json"], .ofText "\x7b\"x\": \x7b\x7d\x7d" false)]
  workingDirectory := []

def thinned : FileTree :=
  grove.put ["contract.json"] (.ofText "\x7b\"sources\": \x7b\"a\": \"s\"\x7d\x7d" false)

theorem grove_contract : readOrEmpty grove (Location.text []) .contract =
    .ok [("sources", .object [("a", .string "s"), ("b", .string "./s")])] :=
  Descriptor.readOrEmpty_present ((FileTree.locate_eq_walkAll (by decide)).trans (by rfl)) rfl
    (by cbv) (by cbv) (by cbv)

theorem thinned_contract : readOrEmpty thinned (Location.text []) .contract =
    .ok [("sources", .object [("a", .string "s")])] :=
  Descriptor.readOrEmpty_present ((FileTree.locate_eq_walkAll (by decide)).trans (by rfl)) rfl
    (by cbv) (by cbv) (by cbv)

theorem undeclared_thinned : Undeclared grove thinned [] "sources" "b" := by
  have plain : Unlinked grove := by
    intro e he target link
    have none : ∀ e ∈ grove.entries, ∀ target, e.2 ≠ .link target := by
      simp [grove, FileEntry.ofText]
    exact absurd link (none e he target)
  have held : ∀ e ∈ grove.entries, e.1 = [] ++ [DescriptorFile.contract.fileName] →
      ∃ content, e.2 = .file content false := by
    simp [grove, FileEntry.ofText, DescriptorFile.fileName]
  exact Undeclared.of_rewrite (.inl rfl) plain ⟨_, List.mem_cons_self, rfl⟩ held
    ⟨_, [("a", .string "s"), ("b", .string "./s")], grove_contract, rfl, thinned_contract⟩

theorem grove_resolves {link : String} (h : link ∈ ["s", "./s"]) :
    resolveLink grove (Location.text []) link = .ok ["s"] := by
  have top : grove.canonical (Location.text []) = .ok [] :=
    (FileTree.canonical_eq_walkAll (by decide)).trans (by rfl)
  have below : ∀ n ∈ ["s", "./s"], FileTree.IsPlain (Path.join (Location.text []) n) ∧
      grove.walkAll (Path.join (Location.text []) n) = .ok ["s"] ∧ Path.isAbsolute n = false ∧
      Descriptor.escapesFrom 0 (Path.components n) = false := by decide
  have visible : link.isBlankText = false := by
    rcases List.mem_pair.mp h with rfl | rfl <;> cbv
  have found : grove.entry? ["s"] = some .directory := rfl
  obtain ⟨plain, walked, relative, inside⟩ := below link h
  have led := (FileTree.canonical_eq_walkAll plain).trans walked
  simp [resolveLink, visible, relative, inside, top, led, found]

theorem repeats_grove : Repeats grove [] "b" := by
  intro ms before link after read split
  obtain rfl := Except.ok.inj (grove_contract.symm.trans read)
  have declared : [("a", "s"), ("b", "./s")] = before ++ ("b", link) :: after := split
  cases before with
  | nil => simp at declared
  | cons l before =>
    obtain ⟨rfl, declared⟩ := List.cons.inj declared
    cases before with
    | nil =>
      cases declared
      exact ⟨_, List.mem_cons_self,
        (grove_resolves (by decide)).trans (grove_resolves (by decide)).symm⟩
    | cons m before => simp at declared

/-- What the directory is linked to for. -/
def sapling : RawManifest := ⟨[("stateDefaults", Value.inherited)], [("x", Value.inherited)]⟩

theorem wellNamed_sapling : WellNamed sapling := ⟨by decide, by decide⟩

theorem merge_repeated_grove :
    Value.Distinct Value.inherited ∧
      Value.merge .keepExisting Value.inherited Value.inherited = Value.inherited ∧
      Value.merge .takeIncoming (Value.merge .takeIncoming Value.declared Value.inherited)
        Value.inherited = Value.merge .takeIncoming Value.declared Value.inherited ∧
      WellNamed sapling ∧
      mergeTarget (mergeTarget sapling sapling "a") sapling "a" = mergeTarget sapling sapling "a" ∧
      Undeclared grove thinned [] "sources" "b" ∧ Repeats grove [] "b" ∧ grove.Reached [] ∧
      ∀ fuel, loadTree thinned fuel [] [] = loadTree grove fuel [] [] := by
  obtain ⟨alone, twice, raws, linked⟩ := merge_repeated
  exact ⟨Value.distinct_inherited, alone _ _ Value.distinct_inherited,
    twice _ _ _ Value.distinct_inherited, wellNamed_sapling,
    (raws _ _ wellNamed_sapling).2 "a", undeclared_thinned, repeats_grove, .top,
    fun fuel => linked _ _ _ _ undeclared_thinned repeats_grove fuel [] [] .top⟩

end RawManifest

end CommandContract
