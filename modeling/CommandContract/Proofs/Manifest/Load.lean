import CommandContract.Proofs.Except
import CommandContract.Proofs.FileTree.Canonical
import CommandContract.Proofs.Json.Outline
import CommandContract.Proofs.Manifest.Tree

set_option autoImplicit false

/-!
# Loading descriptor trees

A tree of files describes a descriptor tree if every link in it can be followed. Then loading merges
that descriptor tree, whatever the bound on its steps is, as long as it is not less than the depth:
`RawManifest.loadTree_eq`.
-/
namespace CommandContract

/-! ## What is read -/

namespace Descriptor

variable {files : FileTree} {directory : String} {file : DescriptorFile} {ms : Members Value}

theorem distinct_of_read (h : read files directory file = .ok (some ms)) :
    (Value.object ms).Distinct := by
  unfold read at h
  dsimp only at h
  split at h
  · cases h
  · split at h
    · cases h
    · split at h
      · cases h
        exact .empty
      · split at h
        · cases h
        · rename_i hv
          cases h
          exact Json.distinct_of_ofJson? hv
        · cases h

theorem distinct_of_readOrEmpty (h : readOrEmpty files directory file = .ok ms) :
    (Value.object ms).Distinct := by
  obtain ⟨found, hf, rfl⟩ := Except.map_eq_ok_iff.mp h
  cases found with
  | none => exact .empty
  | some ms => exact distinct_of_read hf

theorem readOrEmpty_missing {cause : FileError}
    (h : files.locate (Path.join directory file.fileName) = .error cause) :
    readOrEmpty files directory file = .ok [] := by
  have missing : files.pathExists (Path.join directory file.fileName) = false := by
    rw [FileTree.pathExists, FileTree.target?, h]
    rfl
  simp [readOrEmpty, read, missing, Except.map]

theorem readOrEmpty_present {location : Location} {text : String} {executable : Bool}
    {ms : Members Value}
    (h : files.locate (Path.join directory file.fileName) = .ok location)
    (found : files.entry? location = some (.ofText text executable))
    (decoded : Text.ofUtf8? (Text.utf8 text) = some text) (visible : text.isBlankText = false)
    (parsed : Value.ofJson? text = some (.object ms)) :
    readOrEmpty files directory file = .ok ms := by
  have present : files.pathExists (Path.join directory file.fileName) = true := by
    rw [FileTree.pathExists, FileTree.target?, h]
    simp [found]
  have content : files.readText (Path.join directory file.fileName) = .ok text := by
    simp [FileTree.readText, FileTree.readBytes, FileTree.contentAt, FileEntry.ofText, h, found,
      decoded, bind, Except.bind]
  simp [readOrEmpty, read, present, content, visible, parsed, Except.map]

/-- A resolved link leads to a directory below the one that it stands in. -/
theorem of_resolveLink {directory target : Location} {link : String}
    (reached : files.Reached directory)
    (h : resolveLink files (Location.text directory) link = .ok target) :
    files.Reached target ∧ directory <+: target ∧ files.entry? target = some .directory := by
  unfold resolveLink at h
  split at h
  · cases h
  · split at h
    · cases h
    · split at h
      · cases h
      · split at h
        · cases h
        · rename_i base hb
          obtain rfl := reached.eq_of_canonical hb
          split at h
          · cases h
          · rename_i found ht
            split at h
            · cases h
            · rename_i inside
              split at h
              · cases h
              · rename_i entry
                cases h
                refine ⟨FileTree.reached_of_canonical ht (.inl ?_), ?_, by simpa using entry⟩
                · exact FileTree.isAbsolute_join_text base link
                · exact List.isPrefixOf_iff_prefix.mp (by simpa using inside)

end Descriptor

namespace Value.Distinct

variable {ms : Members Value}

theorem of_sublist {ns : Members Value} (h : Distinct (.object ms)) (hs : ns.Sublist ms) :
    Distinct (.object ns) :=
  .object (h.once.sublist (hs.map _)) fun _ hm => h.inside (hs.subset hm)

theorem erase (h : Distinct (.object ms)) (key : String) :
    Distinct (.object (Members.erase key ms)) :=
  h.of_sublist (Members.erase_sublist key ms)

end Value.Distinct

namespace RawManifest

variable {files : FileTree} {directory : String} {commands : Members Value}

/-- The properties of an entry that count. -/
def counted (file : DescriptorFile) (properties : Members Value) : Members Value :=
  if file = .routes then properties.filter fun p => p.1 = "next" else properties

theorem composeFile_cons (commands : Members Value) (file : DescriptorFile) (name : String)
    (properties rest : Members Value) :
    composeFile commands file ((name, .object properties) :: rest) =
      composeFile (Value.mergeOne .keepExisting commands name (.object (counted file properties)))
        file rest := by
  rw [composeFile, Value.mergeOne]
  cases Members.get? name commands <;> rfl

theorem distinct_counted {properties : Members Value} (h : (Value.object properties).Distinct)
    (file : DescriptorFile) : (Value.object (counted file properties)).Distinct := by
  unfold counted
  split
  · exact h.of_sublist List.filter_sublist
  · exact h

theorem Composed.composeFile (h : Composed commands) (file : DescriptorFile)
    {entries : Members Value} (hd : ∀ m ∈ entries, m.2.Distinct) :
    Composed (composeFile commands file entries) := by
  induction entries generalizing commands with
  | nil => exact h
  | cons head rest ih =>
    obtain ⟨name, v⟩ := head
    rw [List.forall_mem_cons] at hd
    obtain ⟨hv, hd⟩ := hd
    cases v with
    | object properties =>
      rw [composeFile_cons]
      exact ih (h.mergeOne .keepExisting (distinct_counted hv file)) hd
    | _ => exact ih h hd

theorem composed_of_composeCommands
    (h : composeCommands files directory = .ok commands) : Composed commands := by
  have run : ∀ (kinds : List DescriptorFile) {before after : Members Value}, Composed before →
      kinds.foldlM (fun commands file =>
        (Descriptor.readOrEmpty files directory file).map (composeFile commands file)) before =
        .ok after → Composed after := by
    intro kinds
    induction kinds with
    | nil =>
      intro before after hb h
      cases h
      exact hb
    | cons file kinds ih =>
      intro before after hb h
      rw [List.foldlM_cons] at h
      obtain ⟨next, hn, h⟩ := Except.bind_eq_ok_iff.mp h
      obtain ⟨entries, he, rfl⟩ := Except.map_eq_ok_iff.mp hn
      have hd := Descriptor.distinct_of_readOrEmpty he
      exact ih (hb.composeFile file fun m hm => hd.inside hm) h
  exact run commandFiles .nil h

/-- The own part of a directory's form: its metadata without the links, and its commands. -/
def ownForm (contract commands : Members Value) : RawManifest :=
  ⟨Members.erase "targets" (Members.erase "sources" contract), commands⟩

theorem sound_ownForm {contract : Members Value}
    (hc : Descriptor.readOrEmpty files directory .contract = .ok contract)
    (h : composeCommands files directory = .ok commands) : (ownForm contract commands).Sound where
  metadata := ((Descriptor.distinct_of_readOrEmpty hc).erase _).erase _
  commands := composed_of_composeCommands h

/-! ## Trees of files that describe descriptor trees -/

mutual

/-- What the files below a directory describe if every link can be followed. -/
inductive Describes (files : FileTree) : List Location → Location → DescriptorTree → Prop
  | node {visiting : List Location} {directory : Location} {contract commands : Members Value}
      {sources targets : List (String × DescriptorTree)}
      (metadata : Descriptor.readOrEmpty files (Location.text directory) .contract = .ok contract)
      (composed : composeCommands files (Location.text directory) = .ok commands)
      (toSources : Leads files (visiting ++ [directory]) directory (links "sources" contract)
        sources)
      (toTargets : Leads files (visiting ++ [directory]) directory (links "targets" contract)
        targets) :
      Describes files visiting directory (.node (ownForm contract commands)
        (sound_ownForm metadata composed) sources targets)

/-- Links lead to directories that describe trees, one after the other. -/
inductive Leads (files : FileTree) :
    List Location → Location → List (String × String) → List (String × DescriptorTree) → Prop
  | nil (visiting : List Location) (directory : Location) : Leads files visiting directory [] []
  | cons {visiting : List Location} {directory location : Location} {label link : String}
      {child : DescriptorTree} {others : List (String × String)}
      {children : List (String × DescriptorTree)}
      (followed : followLink files visiting directory link = .ok location)
      (described : Describes files visiting location child)
      (rest : Leads files visiting directory others children) :
      Leads files visiting directory ((label, link) :: others) ((label, child) :: children)

end

variable {visiting : List Location} {location : Location} {t : DescriptorTree}

/-- The children of a directory as loading finds them. -/
def childOf (files : FileTree) (fuel : Nat) (visiting : List Location) (directory : Location)
    (link : String) : Except LoadError RawManifest := do
  let target ← followLink files visiting directory link
  loadTree files fuel visiting target

theorem loadTree_succ {fuel : Nat} {contract : Members Value}
    (metadata : Descriptor.readOrEmpty files (Location.text location) .contract = .ok contract)
    (composed : composeCommands files (Location.text location) = .ok commands) :
    loadTree files (fuel + 1) visiting location =
      .ok ((links "targets" contract).foldl
        (fun raw l =>
          match childOf files fuel (visiting ++ [location]) location l.2 with
          | .ok target => mergeTarget raw target l.1
          | .error _ => raw)
        ((links "sources" contract).foldl
          (fun raw l =>
            match childOf files fuel (visiting ++ [location]) location l.2 with
            | .ok source => mergeSource raw source
            | .error _ => raw)
          (ownForm contract commands))) := by
  rw [loadTree, metadata, composed]
  rfl

mutual

/-- Loading merges what the files describe. -/
theorem loadTree_eq : ∀ {visiting : List Location} {location : Location} {t : DescriptorTree}
    (fuel : Nat), Describes files visiting location t → t.depth ≤ fuel →
      loadTree files fuel visiting location = .ok t.merged
  | _, _, _, 0, .node .., enough => by
    rw [DescriptorTree.depth] at enough
    omega
  | _, _, _, fuel + 1, .node metadata composed toSources toTargets, enough => by
    rw [DescriptorTree.depth] at enough
    -- the children are a level lower and have one step less
    have sources := foldl_leads fuel toSources (by omega)
      (fun raw _ source => mergeSource raw source)
    have targets := foldl_leads fuel toTargets (by omega)
      (fun raw label target => mergeTarget raw target label)
    rw [loadTree_succ metadata composed, sources, targets, DescriptorTree.merged]
    rfl

theorem foldl_leads : ∀ {visiting : List Location} {directory : Location}
    {ls : List (String × String)} {children : List (String × DescriptorTree)} (fuel : Nat),
    Leads files visiting directory ls children → DescriptorTree.depthAll children ≤ fuel →
      ∀ (merge : RawManifest → String → RawManifest → RawManifest) (raw : RawManifest),
        ls.foldl
          (fun raw l =>
            match childOf files fuel visiting directory l.2 with
            | .ok child => merge raw l.1 child
            | .error _ => raw) raw =
        (DescriptorTree.mergedAll children).foldl (fun raw c => merge raw c.1 c.2) raw
  | _, _, _, _, _, .nil _ _, _, _, _ => rfl
  | _, _, _, _, fuel, .cons followed described rest, enough, merge, raw => by
    rw [DescriptorTree.depthAll] at enough
    have first := loadTree_eq fuel described (Nat.le_trans (Nat.le_max_left _ _) enough)
    have others := foldl_leads fuel rest (Nat.le_trans (Nat.le_max_right _ _) enough) merge
    rw [List.foldl_cons, DescriptorTree.mergedAll, List.foldl_cons, others, childOf, followed]
    simp only [bind, Except.bind, first]

end

/-! ## How deep links lead -/

/-- A link leads further down than where it stands: what it leads to is not being visited. -/
theorem followLink_below {directory : Location} {link : String}
    (h : followLink files visiting directory link = .ok location)
    (reached : files.Reached directory) (seen : directory ∈ visiting) :
    files.Reached location ∧ directory.length < location.length ∧
      location.length ≤ files.height := by
  obtain ⟨target, hr, h⟩ := Except.bind_eq_ok_iff.mp h
  split at h
  · cases h
  rename_i unseen
  cases h
  obtain ⟨canonical, below, found⟩ := Descriptor.of_resolveLink reached hr
  have other : directory ≠ location := by
    rintro rfl
    exact unseen (List.contains_iff_mem.mpr seen)
  refine ⟨canonical, ?_, FileTree.length_le_height found⟩
  have shorter := below.length_le
  have different : directory.length ≠ location.length := fun he => other (below.eq_of_length he)
  omega

mutual

theorem depth_le : ∀ {visiting : List Location} {location : Location} {t : DescriptorTree},
    Describes files visiting location t → files.Reached location →
      t.depth ≤ files.height - location.length + 1
  | _, _, _, .node _ _ toSources toTargets, reached => by
    have seen : ∀ {visiting : List Location} {directory : Location},
        directory ∈ visiting ++ [directory] := List.mem_append_right _ (List.mem_singleton.mpr rfl)
    have sources := depthAll_le toSources reached seen
    have targets := depthAll_le toTargets reached seen
    rw [DescriptorTree.depth]
    omega

theorem depthAll_le : ∀ {visiting : List Location} {directory : Location}
    {ls : List (String × String)} {children : List (String × DescriptorTree)},
    Leads files visiting directory ls children → files.Reached directory → directory ∈ visiting →
      DescriptorTree.depthAll children ≤ files.height - directory.length
  | _, _, _, _, .nil _ _, _, _ => Nat.zero_le _
  | _, _, _, _, .cons followed described rest, reached, seen => by
    obtain ⟨further, down, bounded⟩ := followLink_below followed reached seen
    -- what is left of the height shrinks by at least one with every link
    have first := depth_le described further
    have others := depthAll_le rest reached seen
    rw [DescriptorTree.depthAll]
    omega

end

end RawManifest

/-- Enough steps are allowed for every tree that loading begins with. -/
theorem Manifest.load_eq {files : FileTree} {directory : String} {location : Location}
    {t : DescriptorTree} (projectRoot : Option String)
    (there : files.isFile (Path.join directory DescriptorFile.contract.fileName) = true)
    (found : files.canonical directory = .ok location)
    (start : Path.isAbsolute directory = true ∨ files.Reached files.workingDirectory)
    (h : RawManifest.Describes files [] location t) :
    ∃ project, load files directory projectRoot =
      .ok (t.merged.build (Location.text location) project) := by
  have deep := RawManifest.depth_le h (FileTree.reached_of_canonical found start)
  have loaded := RawManifest.loadTree_eq (files.height + 2) h (by omega)
  unfold load
  simp only [there, found, loaded, Bool.not_true, Bool.false_eq_true, if_false]
  exact ⟨_, rfl⟩

end CommandContract
