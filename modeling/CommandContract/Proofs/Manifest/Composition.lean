import CommandContract.Proofs.Manifest.Load

set_option autoImplicit false

/-!
# What the files of one directory compose to

A file merges what counts of its entries into the commands of the files in front of it, and what is
there wins. So each file only adds: names come in the order of their first entries, no leaf is lost,
and of routes nothing but the rules is seen. `RawManifest.compose_adds_only` says this of the four
files of a directory.
-/
namespace CommandContract

namespace Value

variable {p : Precedence} {existing ms : Members Value} {names : List String}

/-- Members that are not `null` are merged in under their names, unless these are there already. -/
theorem keys_mergeMembers_eq_eraseDups (solid : ∀ m ∈ ms, m.2 ≠ null)
    (h : Members.keys existing = names.eraseDups) :
    Members.keys (mergeMembers p existing ms) = (names ++ Members.keys ms).eraseDups := by
  induction ms generalizing existing names with
  | nil => rw [mergeMembers, h, Members.keys, List.map_nil, List.append_nil]
  | cons head rest ih =>
    obtain ⟨key, v⟩ := head
    rw [List.forall_mem_cons] at solid
    obtain ⟨hv, solid⟩ := solid
    rw [ne_eq, ← isNull_eq_true_iff] at hv
    have first : Members.keys (mergeOne p existing key v) = (names ++ [key]).eraseDups := by
      rw [keys_mergeOne, newMembers_singleton, h, List.eraseDups_append]
      by_cases hk : key ∈ names
      · simp [List.removeAll, Members.keys, hk]
      · simp [List.removeAll, Members.keys, hk, hv, List.eraseDups_cons]
    rw [mergeMembers_cons, ih solid first, Members.keys_cons, List.append_assoc]
    rfl

end Value

namespace RawManifest

variable {slices : DescriptorFile → Members Value} {file : DescriptorFile}
  {files earlier later before after : List DescriptorFile} {name key : String}
  {path : List String} {leaf : Value} {entries properties : Members Value}

/-! ## One file -/

/-- The names of the entries that are objects. -/
def entryNames (entries : Members Value) : List String :=
  Members.keys (entries.filter fun m => m.2.object?.isSome)

/-- What a file says of commands: the entries that are objects, with what counts of each. -/
def contributed (file : DescriptorFile) (entries : Members Value) : Members Value :=
  entries.filterMap fun m =>
    m.2.object?.map fun properties => (m.1, .object (counted file properties))

theorem contributed_cons_object (file : DescriptorFile) (name : String)
    (properties rest : Members Value) :
    contributed file ((name, .object properties) :: rest) =
      (name, .object (counted file properties)) :: contributed file rest := rfl

theorem composeFile_eq (commands : Members Value) (file : DescriptorFile)
    (entries : Members Value) :
    composeFile commands file entries =
      Value.mergeMembers .keepExisting commands (contributed file entries) := by
  induction entries generalizing commands with
  | nil => rw [composeFile, contributed, List.filterMap_nil, Value.mergeMembers]
  | cons head rest ih =>
    obtain ⟨name, v⟩ := head
    cases v with
    | object properties =>
      rw [composeFile_cons, ih, contributed_cons_object, Value.mergeMembers_cons]
    | _ => exact ih commands

theorem keys_contributed (file : DescriptorFile) (entries : Members Value) :
    Members.keys (contributed file entries) = entryNames entries := by
  induction entries with
  | nil => rfl
  | cons head rest ih =>
    obtain ⟨name, v⟩ := head
    cases v with
    | object properties => exact congrArg (name :: ·) ih
    | _ => exact ih

theorem nodup_entryNames (once : (Members.keys entries).Nodup) : (entryNames entries).Nodup :=
  once.sublist (List.filter_sublist.map _)

theorem mem_contributed {m : String × Value} (h : m ∈ contributed file entries) :
    ∃ properties, (m.1, .object properties) ∈ entries ∧
      m.2 = .object (counted file properties) := by
  obtain ⟨⟨name, v⟩, hm, he⟩ := List.mem_filterMap.mp h
  cases v with
  | object properties =>
    cases he
    exact ⟨properties, hm, rfl⟩
  | _ => cases he

theorem composed_contributed (hd : (Value.object entries).Distinct) (file : DescriptorFile) :
    Composed (contributed file entries) where
  distinct := by
    refine .object ?_ fun m hm => ?_
    · rw [keys_contributed]
      exact nodup_entryNames hd.once
    · obtain ⟨properties, given, hm⟩ := mem_contributed hm
      rw [hm]
      exact distinct_counted (hd.inside given) file
  specs := fun m hm => by
    obtain ⟨properties, _, hm⟩ := mem_contributed hm
    exact ⟨_, hm⟩

theorem get?_contributed (once : (Members.keys entries).Nodup) (file : DescriptorFile)
    (name : String) :
    Members.get? name (contributed file entries) = (Members.get? name entries).bind fun v =>
      v.object?.map fun properties => .object (counted file properties) := by
  induction entries with
  | nil => rfl
  | cons head rest ih =>
    obtain ⟨k, v⟩ := head
    rw [Members.keys_cons, List.nodup_cons] at once
    by_cases hk : k = name
    · subst hk
      rw [Members.get?, if_pos rfl, Option.bind_some]
      cases v with
      | object properties => rw [contributed_cons_object, Members.get?, if_pos rfl]; rfl
      | _ =>
        -- a second entry of the name would count in place of one that is no object
        have last : Members.get? k rest = none := (Members.get?_eq_none_iff k rest).mpr once.1
        exact (ih once.2).trans (by rw [last]; rfl)
    · rw [Members.get?, if_neg hk, ← ih once.2]
      cases v with
      | object properties => rw [contributed_cons_object, Members.get?, if_neg hk]
      | _ => rfl

theorem hasLeaf_counted_iff : (Value.object (counted file properties)).HasLeaf path leaf ↔
    (Value.object properties).HasLeaf path leaf ∧
      (file = .routes → path.head? = some "next") := by
  by_cases hf : file = .routes
  · rw [counted, if_pos hf]
    cases path with
    | nil => simp [Value.not_hasLeaf_object_nil]
    | cons key path =>
      rw [Value.hasLeaf_cons_iff, Value.hasLeaf_cons_iff, Value.part, Value.part, Value.member?,
        Value.member?]
      by_cases hk : key = "next"
      · rw [Members.get?_filter (fun key => decide (key = "next")) (by simpa using hk)]
        simp [hk]
      · have absent : Members.get? key (properties.filter fun p => p.1 = "next") = none := by
          rw [Members.get?_eq_none_iff,
            Members.keys_filter fun key => decide (key = "next")]
          simp [hk]
        simp [absent, hk, hf, Value.not_hasLeaf_null]
  · rw [counted, if_neg hf]
    simp [hf]

theorem hasLeaf_contributed_iff (once : (Members.keys entries).Nodup) :
    (Value.object (contributed file entries)).HasLeaf (name :: path) leaf ↔
      ∃ properties, Members.get? name entries = some (.object properties) ∧
        (Value.object properties).HasLeaf path leaf ∧
        (file = .routes → path.head? = some "next") := by
  rw [Value.hasLeaf_cons_iff, Value.part, Value.member?, get?_contributed once]
  simp only [← hasLeaf_counted_iff]
  cases Members.get? name entries with
  | none => simpa using Value.not_hasLeaf_null
  | some v =>
    cases v with
    | object properties => simp [Value.object?]
    | _ => simpa [Value.object?] using Value.not_hasLeaf_null

theorem get?_composeFile (once : (Members.keys entries).Nodup)
    (h : Members.get? name entries = some (.object properties)) (commands : Members Value)
    (file : DescriptorFile) :
    Members.get? name (composeFile commands file entries) =
      some (((Value.object commands).part name).merge .keepExisting
        (.object (counted file properties))) := by
  have once' : (Members.keys (contributed file entries)).Nodup := by
    rw [keys_contributed]
    exact nodup_entryNames once
  rw [composeFile_eq, Value.get?_mergeMembers _ _ _ once', get?_contributed once, h, Value.part,
    Value.member?]
  cases Members.get? name commands with
  | some v => rfl
  | none => rw [Option.getD_none, Value.merge_blank]; rfl

/-! ## Files one after the other -/

/-- The commands that files with the given entries compose to. -/
def composed (slices : DescriptorFile → Members Value) (files : List DescriptorFile) :
    Members Value :=
  files.foldl (fun commands file => composeFile commands file (slices file)) []

theorem composed_append_singleton (slices : DescriptorFile → Members Value)
    (files : List DescriptorFile) (file : DescriptorFile) :
    composed slices (files ++ [file]) =
      Value.mergeMembers .keepExisting (composed slices files)
        (contributed file (slices file)) := by
  rw [composed, List.foldl_append, ← composeFile_eq]
  rfl

theorem composeCommands_eq_composed {tree : FileTree} {directory : String}
    (h : ∀ file ∈ commandFiles, Descriptor.readOrEmpty tree directory file = .ok (slices file)) :
    composeCommands tree directory = .ok (composed slices commandFiles) := by
  have run : ∀ (files : List DescriptorFile) (commands : Members Value),
      (∀ file ∈ files, Descriptor.readOrEmpty tree directory file = .ok (slices file)) →
      files.foldlM (fun commands file =>
        (Descriptor.readOrEmpty tree directory file).map (composeFile commands file)) commands =
        .ok (files.foldl (fun commands file => composeFile commands file (slices file))
          commands) := by
    intro files
    induction files with
    | nil => exact fun _ _ => rfl
    | cons file files ih =>
      intro commands h
      rw [List.forall_mem_cons] at h
      rw [List.foldlM_cons, h.1]
      exact ih _ h.2
  exact run commandFiles [] h

/-- The names in the files are distinct, at every depth. -/
abbrev AllDistinct (slices : DescriptorFile → Members Value) (files : List DescriptorFile) : Prop :=
  ∀ file ∈ files, (Value.object (slices file)).Distinct

theorem composed_sound (hd : AllDistinct slices files) : Composed (composed slices files) := by
  induction files using List.reverseRec with
  | nil => exact .nil
  | append_singleton files file ih =>
    rw [AllDistinct, List.forall_mem_append, List.forall_mem_singleton] at hd
    rw [composed_append_singleton, ← composeFile_eq]
    exact (ih hd.1).composeFile file fun m hm => hd.2.inside hm

theorem object_composed_append_singleton (slices : DescriptorFile → Members Value)
    (files : List DescriptorFile) (file : DescriptorFile) :
    Value.object (composed slices (files ++ [file])) =
      (Value.object (composed slices files)).merge .keepExisting
        (.object (contributed file (slices file))) := by
  rw [composed_append_singleton, Value.merge_object]

theorem keys_composed (hd : AllDistinct slices files) :
    Members.keys (composed slices files) =
      (files.flatMap fun file => entryNames (slices file)).eraseDups := by
  induction files using List.reverseRec with
  | nil => rfl
  | append_singleton files file ih =>
    rw [AllDistinct, List.forall_mem_append, List.forall_mem_singleton] at hd
    have solid := (composed_contributed hd.2 file).ne_null
    rw [composed_append_singleton, Value.keys_mergeMembers_eq_eraseDups solid (ih hd.1),
      keys_contributed, List.flatMap_append, List.flatMap_singleton]

theorem composed_kept (hd : AllDistinct slices later) (first : earlier <+: later)
    (h : (Value.object (composed slices earlier)).HasLeaf path leaf) :
    (Value.object (composed slices later)).HasLeaf path leaf := by
  obtain ⟨others, rfl⟩ := first
  induction others using List.reverseRec with
  | nil => rwa [List.append_nil]
  | append_singleton others file ih =>
    rw [← List.append_assoc] at hd ⊢
    rw [AllDistinct, List.forall_mem_append, List.forall_mem_singleton] at hd
    rw [object_composed_append_singleton]
    exact Value.merge_stronger_leaf (composed_contributed hd.2 file).distinct (ih hd.1)

theorem composed_added (hd : AllDistinct slices (before ++ file :: after))
    (entry : Members.get? name (slices file) = some (.object properties))
    (h : (Value.object properties).HasLeaf path leaf)
    (rule : file = .routes → path.head? = some "next")
    (spares : (Value.object (composed slices before)).Spares (name :: path)) :
    (Value.object (composed slices (before ++ file :: after))).HasLeaf (name :: path) leaf := by
  rw [List.append_cons] at hd ⊢
  refine composed_kept hd (List.prefix_append _ _) ?_
  have distinct : (Value.object (slices file)).Distinct := hd file (by simp)
  rw [object_composed_append_singleton]
  refine Value.merge_weaker_leaf (composed_contributed distinct file).distinct ?_ spares.1 spares.2
  exact (hasLeaf_contributed_iff distinct.once).mpr ⟨properties, entry, h, rule⟩

/-- A leaf comes from an entry of its command, and from routes only as part of the rules. -/
theorem composed_origin (hd : AllDistinct slices files)
    (h : (Value.object (composed slices files)).HasLeaf (name :: path) leaf) :
    ∃ file ∈ files, ∃ properties, Members.get? name (slices file) = some (.object properties) ∧
      (Value.object properties).HasLeaf path leaf ∧
      (file = .routes → path.head? = some "next") := by
  induction files using List.reverseRec with
  | nil =>
    rw [Value.hasLeaf_cons_iff] at h
    exact absurd h Value.not_hasLeaf_null
  | append_singleton files file ih =>
    rw [AllDistinct, List.forall_mem_append, List.forall_mem_singleton] at hd
    rw [object_composed_append_singleton] at h
    rcases Value.merge_leaf_origin (composed_contributed hd.2 file).distinct h with h | h
    · obtain ⟨source, hs, given⟩ := ih hd.1 h
      exact ⟨source, List.mem_append_left _ hs, given⟩
    · exact ⟨file, by simp, (hasLeaf_contributed_iff hd.2.once).mp h⟩

/-! ## Routes -/

theorem get?_counted_routes (h : key ≠ "next") (properties : Members Value) :
    Members.get? key (counted .routes properties) = none := by
  rw [counted, if_pos rfl, Members.get?_eq_none_iff,
    Members.keys_filter fun key => decide (key = "next")]
  simp [h]

/-- Routes leave every property but the rules as it is, and bring none. -/
theorem member?_composed_routes (hd : AllDistinct slices (files ++ [.routes]))
    (h : key ≠ "next") (name : String) :
    (Members.get? name (composed slices (files ++ [.routes]))).bind (Value.member? key) =
      (Members.get? name (composed slices files)).bind (Value.member? key) := by
  rw [AllDistinct, List.forall_mem_append, List.forall_mem_singleton] at hd
  have incoming := composed_contributed hd.2 .routes
  rw [composed_append_singleton, Value.get?_mergeMembers _ _ _ incoming.distinct.once]
  cases given : Members.get? name (contributed .routes (slices .routes)) with
  | none => cases Members.get? name (composed slices files) <;> rfl
  | some v =>
    obtain ⟨properties, entry, hv⟩ := mem_contributed (Members.mem_of_get? given)
    dsimp only at hv
    subst hv
    have once := (incoming.distinct.member given).once
    cases held : Members.get? name (composed slices files) with
    | none => exact get?_counted_routes h properties
    | some w =>
      obtain ⟨existing, hw⟩ := (composed_sound hd.1).specs _ (Members.mem_of_get? held)
      dsimp only at hw
      subst hw
      rw [Value.mergeMember?, Option.bind_some, Option.bind_some, Value.merge_object,
        Value.member?, Value.member?, Value.get?_mergeMembers _ _ _ once, get?_counted_routes h]
      cases Members.get? key existing <;> rfl

theorem get?_composed_routes (hd : AllDistinct slices (files ++ [.routes]))
    (alone : name ∉ Members.keys (composed slices files))
    (entry : Members.get? name (slices .routes) = some (.object properties)) :
    Members.get? name (composed slices (files ++ [.routes])) =
      some (.object (properties.filter fun p => p.1 = "next")) := by
  rw [AllDistinct, List.forall_mem_append, List.forall_mem_singleton] at hd
  rw [composed_append_singleton,
    Value.get?_mergeMembers _ _ _ (composed_contributed hd.2 .routes).distinct.once,
    (Members.get?_eq_none_iff name _).mpr alone, get?_contributed hd.2.once, entry]
  rfl

/-! ## The files of a directory -/

/-- The commands of a directory with the given entries are what each of its files adds to those in
front of it. -/
structure AddsOnly (slices : DescriptorFile → Members Value) : Prop where
  /-- Exactly the names of entries that are objects, in the order of their first appearance. -/
  names : Members.keys (composed slices commandFiles) =
    (commandFiles.flatMap fun file => entryNames (slices file)).eraseDups
  objects : ∀ m ∈ composed slices commandFiles, ∃ properties, m.2 = .object properties
  /-- No file changes a leaf of those in front of it. -/
  kept : ∀ earlier later, earlier <+: later → later <+: commandFiles → ∀ path leaf,
    (Value.object (composed slices earlier)).HasLeaf path leaf →
      (Value.object (composed slices later)).HasLeaf path leaf
  /-- A leaf of a file is added unless something stands in its way. -/
  added : ∀ before file after, commandFiles = before ++ file :: after →
    ∀ name properties path leaf,
      Members.get? name (slices file) = some (.object properties) →
      (Value.object properties).HasLeaf path leaf →
      (file = .routes → path.head? = some "next") →
      (Value.object (composed slices before)).Spares (name :: path) →
        (Value.object (composed slices commandFiles)).HasLeaf (name :: path) leaf
  origin : ∀ name path leaf,
    (Value.object (composed slices commandFiles)).HasLeaf (name :: path) leaf →
      ∃ file ∈ commandFiles, ∃ properties,
        Members.get? name (slices file) = some (.object properties) ∧
        (Value.object properties).HasLeaf path leaf ∧
        (file = .routes → path.head? = some "next")
  /-- Of routes nothing but the rules is ever seen. -/
  routes : ∀ name key, key ≠ "next" →
    (Members.get? name (composed slices commandFiles)).bind (Value.member? key) =
      (Members.get? name (composed slices [.commands, .runtime, .help])).bind (Value.member? key)
  alone : ∀ name properties,
    name ∉ Members.keys (composed slices [.commands, .runtime, .help]) →
    Members.get? name (slices .routes) = some (.object properties) →
      Members.get? name (composed slices commandFiles) =
        some (.object (properties.filter fun p => p.1 = "next"))

/-- A directory whose files have the given entries has the commands that they compose to, and each
file only adds to those in front of it. -/
theorem compose_adds_only (slices : DescriptorFile → Members Value)
    (hd : ∀ file ∈ commandFiles, (Value.object (slices file)).Distinct) :
    (∀ tree directory, (∀ file ∈ commandFiles,
        Descriptor.readOrEmpty tree directory file = .ok (slices file)) →
      composeCommands tree directory = .ok (composed slices commandFiles)) ∧
    AddsOnly slices := by
  have last : AllDistinct slices ([.commands, .runtime, .help] ++ [.routes]) := hd
  refine ⟨fun tree directory => composeCommands_eq_composed, ?_⟩
  exact {
    names := keys_composed hd
    objects := (composed_sound hd).specs
    kept := fun earlier later first among path leaf =>
      composed_kept (fun file hf => hd file (among.subset hf)) first
    added := by
      intro before file after files name properties path leaf
      rw [files] at hd ⊢
      exact composed_added hd
    origin := fun name path leaf => composed_origin hd
    routes := fun name key other => member?_composed_routes last other name
    alone := fun name properties => get?_composed_routes last }

/-- What four files say of a kitchen. One entry is no object, and routes say more than rules. -/
def kitchen : DescriptorFile → Members Value
  | .contract => []
  | .commands => [
      ("bake", .object [("oven", .object [("type", .string "string")])]),
      ("note", .string "draft")]
  | .runtime => [
      ("bake", .object [("oven", .object [("type", .string "integer"), ("min", .int 1)])])]
  | .help => [("serve", .object [("description", .string "Serves what was baked.")])]
  | .routes => [
      ("bake", .object [("next", .string "serve"), ("description", .string "not seen")]),
      ("clean", .object [("oven", .int 5)])]

theorem distinct_kitchen : AllDistinct kitchen commandFiles := by decide

theorem compose_adds_only_kitchen :
    (∀ file ∈ commandFiles, (Value.object (kitchen file)).Distinct) ∧ AddsOnly kitchen ∧
      Members.keys (composed kitchen commandFiles) = ["bake", "serve", "clean"] ∧
      (Value.object (composed kitchen commandFiles)).HasLeaf ["bake", "oven", "type"]
        (.string "string") ∧
      (Value.object (composed kitchen commandFiles)).HasLeaf ["bake", "oven", "min"] (.int 1) ∧
      (Members.get? "bake" (composed kitchen commandFiles)).bind (Value.member? "description") =
        none ∧
      Members.get? "clean" (composed kitchen commandFiles) = some (.object []) := by
  obtain ⟨-, adds⟩ := compose_adds_only kitchen distinct_kitchen
  refine ⟨distinct_kitchen, adds, adds.names.trans (by decide), ?_, ?_,
    adds.routes "bake" "description" (by decide), adds.alone "clean" _ (by decide) rfl⟩
  · exact adds.kept [.commands] commandFiles (by decide) List.prefix_rfl _ _ ⟨rfl, rfl⟩
  · refine adds.added [.commands] .runtime [.help, .routes] rfl "bake" _ ["oven", "min"] _ rfl
      ⟨rfl, rfl⟩ nofun ⟨?_, nofun⟩
    simp only [Value.open_cons_iff, Value.open_nil_iff]
    exact ⟨rfl, rfl, rfl, rfl⟩

end RawManifest

end CommandContract
