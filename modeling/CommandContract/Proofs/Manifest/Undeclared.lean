import Mathlib
import CommandContract.Proofs.FileTree.Alike
import CommandContract.Proofs.Manifest.Visiting

set_option autoImplicit false

/-!
# Links that might as well not be there

A link that is rejected, or that leads to a directory that does not load, is passed over where it is
declared: the whole tree is merged to what it is merged to without that link, whether it is declared
at the top or further down. `loadTree_loads` says this together with how loading ends and when it
fails.
-/
namespace CommandContract

open Descriptor (readOrEmpty resolveLink)

theorem DescriptorFile.isPiece (file : DescriptorFile) : FileTree.IsPiece file.fileName ∧
    (file.fileName ≠ "." ∧ file.fileName ≠ "..") := by
  cases file <;> exact ⟨⟨by decide, by decide⟩, by decide, by decide⟩

namespace RawManifest

/-- One tree of files is the other one, but the directory at a location does not declare one link of
one kind. -/
structure Undeclared (files other : FileTree) (spot : Location) (key label : String) : Prop where
  kind : key = "sources" ∨ key = "targets"
  resolved : ∀ directory, files.Reached directory → ∀ link,
    resolveLink other directory.text link = resolveLink files directory.text link
  read : ∀ directory, files.Reached directory → ∀ file,
    ¬ (directory = spot ∧ file = .contract) →
      readOrEmpty other directory.text file = readOrEmpty files directory.text file
  contract : ∃ ms members, readOrEmpty files spot.text .contract = .ok ms ∧
    Members.get? key ms = some (.object members) ∧
    readOrEmpty other spot.text .contract =
      .ok (Members.put key (.object (Members.erase label members)) ms)

/-- Every link under a label is rejected, or fails to load. -/
def Broken (files : FileTree) (visiting : List Location) (spot : Location) (key label : String) :
    Prop :=
  ∀ ms link, readOrEmpty files spot.text .contract = .ok ms → (label, link) ∈ links key ms →
    ∃ fuel e, childOf files (fuel + 1) (visiting ++ [spot]) spot link = .error e

/-- The directories between two, which are above the second one. -/
def Above (chain : List Location) (directory : Location) : Prop :=
  ∀ location ∈ chain, location <+: directory ∧ location ≠ directory

section Skip

variable {files other : FileTree} {visiting chain : List Location} {spot directory target : Location}
  {key label link : String} {ms members : Members Value}

theorem Above.nil (directory : Location) : Above [] directory := by
  intro location h
  cases h

theorem Above.extend (h : Above chain directory) (below : directory <+: target)
    (deeper : directory.length < target.length) : Above (chain ++ [directory]) target := by
  have longer : ∀ location : Location, location <+: directory → location ≠ target := by
    rintro _ le rfl
    have bound := le.length_le
    omega
  refine List.forall_mem_append.mpr ⟨fun location hl => ?_, List.forall_mem_singleton.mpr ?_⟩
  · exact ⟨(h location hl).1.trans below, longer location (h location hl).1⟩
  · exact ⟨below, longer directory List.prefix_rfl⟩

/-- Directories above the one that declares a link are none that it leads to. -/
theorem followLink_of_above (reached : files.Reached directory) (above : Above chain directory)
    (link : String) : followLink files (visiting ++ chain ++ [directory]) directory link =
      followLink files (visiting ++ [directory]) directory link := by
  unfold followLink
  cases resolved : resolveLink files directory.text link with
  | error e => rfl
  | ok target =>
    obtain ⟨_, below, _⟩ := Descriptor.of_resolveLink reached resolved
    have apart : target ∉ chain := by
      intro hm
      obtain ⟨le, ne⟩ := above target hm
      exact ne (le.eq_of_length (Nat.le_antisymm le.length_le below.length_le))
    have seen : (visiting ++ chain ++ [directory]).contains target =
        (visiting ++ [directory]).contains target := by
      rw [Bool.eq_iff_iff, List.contains_iff_mem, List.contains_iff_mem]
      simp [apart]
    simp only [bind, Except.bind, seen]

/-- A link that fails does so with any number of steps, and whatever is being visited above it. -/
theorem childOf_fails (reached : files.Reached directory) (above : Above chain directory)
    (fails : ∃ fuel e, childOf files (fuel + 1) (visiting ++ [directory]) directory link = .error e)
    (fuel : Nat) :
    ∃ e, childOf files fuel (visiting ++ chain ++ [directory]) directory link = .error e := by
  obtain ⟨enough, e, fails⟩ := fails
  unfold childOf at fails ⊢
  rw [followLink_of_above reached above]
  cases followed : followLink files (visiting ++ [directory]) directory link with
  | error e => exact ⟨e, rfl⟩
  | ok target =>
    rw [followed] at fails
    obtain ⟨file, unreadable⟩ := loadTree_fails_iff.mp ⟨e, fails⟩
    cases fuel with
    | zero => exact ⟨_, rfl⟩
    | succ fuel => exact loadTree_fails_iff.mpr ⟨file, unreadable⟩

theorem followLink_undeclared (undeclared : Undeclared files other spot key label)
    (reached : files.Reached directory) (visiting : List Location) (link : String) :
    followLink other visiting directory link = followLink files visiting directory link := by
  rw [followLink, followLink, undeclared.resolved directory reached link]

theorem links_of_get? (found : Members.get? key ms = some (.object members)) :
    links key ms = members.filterMap fun m => m.2.string?.map fun link => (m.1, link) := by
  rw [links, found]

theorem links_put_erase (label : String)
    (found : Members.get? key ms = some (.object members)) (kind : String) :
    links kind (Members.put key (.object (Members.erase label members)) ms) = links kind ms ∨
      kind = key ∧ ∃ before link after, links key ms = before ++ (label, link) :: after ∧
        links key (Members.put key (.object (Members.erase label members)) ms) =
          before ++ after := by
  by_cases hk : kind = key
  · subst hk
    rw [links_of_get? found, links_of_get? (Members.get?_put_self _ _ _)]
    rcases Members.erase_split label members with same | ⟨before, v, after, split, rest⟩
    · exact .inl (by rw [same])
    · rw [rest, split, List.filterMap_append, List.filterMap_append, List.filterMap_cons]
      cases hv : v.string? with
      | none => exact .inl (by simp only [Option.map_none])
      | some link => exact .inr ⟨rfl, _, link, _, by simp only [Option.map_some], rfl⟩
  · exact .inl (by rw [links, Members.get?_put_of_ne hk, ← links])

theorem ownForm_put_erase (kind : key = "sources" ∨ key = "targets") (v : Value)
    (ms commands : Members Value) :
    ownForm (Members.put key v ms) commands = ownForm ms commands := by
  unfold ownForm
  rcases kind with rfl | rfl
  · rw [Members.erase_put_self]
  · rw [Members.erase_put_of_ne (by decide), Members.erase_put_self]

theorem mergeLinks_undeclared {child : String → Except LoadError RawManifest}
    (found : Members.get? key ms = some (.object members))
    (fails : ∀ link, (label, link) ∈ links key ms → ∃ e, child link = .error e) (kind : String)
    (merge : RawManifest → String → RawManifest → RawManifest) (raw : RawManifest) :
    mergeLinks child merge raw
        (links kind (Members.put key (.object (Members.erase label members)) ms)) =
      mergeLinks child merge raw (links kind ms) := by
  rcases links_put_erase label found kind with same | ⟨rfl, before, link, after, split, rest⟩
  · rw [same]
  · have declared : (label, link) ∈ links kind ms := by
      rw [split]
      exact List.mem_append_right _ List.mem_cons_self
    obtain ⟨e, failing⟩ := fails link declared
    rw [rest, split, mergeLinks_skip failing]

theorem composeCommands_undeclared (undeclared : Undeclared files other spot key label)
    (reached : files.Reached directory) :
    composeCommands other directory.text = composeCommands files directory.text := by
  have same : ∀ file ∈ commandFiles, readOrEmpty other directory.text file =
      readOrEmpty files directory.text file := by
    intro file hf
    refine undeclared.read directory reached file ?_
    rintro ⟨_, rfl⟩
    exact absurd hf (by decide)
  simp only [commandFiles, List.forall_mem_cons] at same
  obtain ⟨commands, runtime, help, routes, _⟩ := same
  simp only [composeCommands, commandFiles, List.foldlM_cons, List.foldlM_nil, commands, runtime,
    help, routes]

/-- What a directory is merged to, given what its links lead to. -/
def mergedWith (child : String → Except LoadError RawManifest)
    (contract commands : Members Value) : RawManifest :=
  mergeLinks child (fun raw label target => mergeTarget raw target label)
    (mergeLinks child (fun raw _ source => mergeSource raw source) (ownForm contract commands)
      (links "sources" contract))
    (links "targets" contract)

/-- If a directory is merged to the same without one of its links, so is every directory from which
it is reached. What is known of the directories that are being visited is carried along. -/
theorem loadTree_undeclared (Seen : List Location → Location → Prop)
    (undeclared : Undeclared files other spot key label)
    (follow : ∀ visiting directory link target, Seen visiting directory →
      files.Reached directory →
        followLink files (visiting ++ [directory]) directory link = .ok target →
          Seen (visiting ++ [directory]) target)
    (idle : ∀ fuel visiting contract less commands, Seen visiting spot → files.Reached spot →
      readOrEmpty files spot.text .contract = .ok contract →
        readOrEmpty other spot.text .contract = .ok less →
          mergedWith (childOf files fuel (visiting ++ [spot]) spot) less commands =
            mergedWith (childOf files fuel (visiting ++ [spot]) spot) contract commands)
    (seen : Seen visiting directory) (reached : files.Reached directory) (fuel : Nat) :
    loadTree other fuel visiting directory = loadTree files fuel visiting directory := by
  induction fuel generalizing visiting directory with
  | zero => rfl
  | succ fuel ih =>
    -- what is below a link comes to the same, with one directory more above it
    have child : childOf other fuel (visiting ++ [directory]) directory =
        childOf files fuel (visiting ++ [directory]) directory := by
      funext link
      unfold childOf
      rw [followLink_undeclared undeclared reached]
      cases followed : followLink files (visiting ++ [directory]) directory link with
      | error e => rfl
      | ok target =>
        exact ih (follow visiting directory link target seen reached followed)
          (followLink_descends reached followed).reached
    have composed := composeCommands_undeclared undeclared reached
    by_cases here : directory = spot
    · subst here
      obtain ⟨ms, members, read, found, readOther⟩ := undeclared.contract
      cases commands : composeCommands files directory.text with
      | error e =>
        have fails := composed.trans commands
        simp only [loadTree_eq_loadWith, loadWith, read, readOther, commands, fails, bind,
          Except.bind]
      | ok own =>
        rw [loadTree_merges readOther (composed.trans commands), loadTree_merges read commands,
          child]
        exact congrArg _ (idle fuel visiting ms _ own seen reached read readOther)
    · have metadata := undeclared.read directory reached .contract fun h => here h.1
      have children := congrFun child
      rw [loadTree_eq_loadWith, loadTree_eq_loadWith, loadWith, loadWith, metadata, composed]
      unfold childOf at children
      simp only [children]

/-- Taking a broken link away changes nothing, wherever it is declared. -/
theorem loadTree_of_above (undeclared : Undeclared files other spot key label)
    (broken : Broken files visiting spot key label) (reached : files.Reached directory)
    (above : Above chain directory) (fuel : Nat) :
    loadTree other fuel (visiting ++ chain) directory =
      loadTree files fuel (visiting ++ chain) directory := by
  refine loadTree_undeclared
    (fun seen directory => ∃ chain, seen = visiting ++ chain ∧ Above chain directory)
    undeclared ?follow ?idle ⟨chain, rfl, above⟩ reached fuel
  case follow =>
    rintro _ directory link target ⟨chain, rfl, above⟩ reached followed
    have down := followLink_descends reached followed
    exact ⟨chain ++ [directory], List.append_assoc .., above.extend down.below down.deeper⟩
  case idle =>
    rintro fuel _ contract less commands ⟨chain, rfl, above⟩ reached read readOther
    obtain ⟨ms, members, declared, found, less'⟩ := undeclared.contract
    cases read.symm.trans declared
    cases readOther.symm.trans less'
    have fails : ∀ link, (label, link) ∈ links key contract → ∃ e,
        childOf files fuel (visiting ++ chain ++ [spot]) spot link = .error e :=
      fun link held => childOf_fails reached above (broken contract link read held) fuel
    rw [mergedWith, mergedWith, ownForm_put_erase undeclared.kind,
      mergeLinks_undeclared found fails, mergeLinks_undeclared found fails]

end Skip

/-! ## Contracts that are written anew -/

section Rewrite

variable {files : FileTree} {spot directory : Location} {key label : String}

/-- No descriptor file is a symbolic link. -/
def Unlinked (files : FileTree) : Prop :=
  ∀ e ∈ files.entries, ∀ target, e.2 = .link target →
    ∀ file : DescriptorFile, e.1.getLast? ≠ some file.fileName

theorem Unlinked.entry?_ne_link (plain : Unlinked files) (directory : Location)
    (file : DescriptorFile) (target : String) :
    files.entry? (directory ++ [file.fileName]) ≠ some (.link target) := by
  intro found
  have named : (directory ++ [file.fileName]).isEmpty = false := by simp
  rw [FileTree.entry?, named, if_neg Bool.false_ne_true] at found
  obtain ⟨e, he, link⟩ := Option.map_eq_some_iff.mp found
  have here : e.1 = directory ++ [file.fileName] := by simpa using List.find?_some he
  refine plain e (List.mem_of_find?_eq_some he) target link file ?_
  rw [here, List.getLast?_concat]

theorem readOrEmpty_congr {other : FileTree} {same : List Nat → List Nat → Prop}
    (alike : FileTree.Alike same files other) (plain : Unlinked files)
    (reached : files.Reached directory) (file : DescriptorFile)
    (held : other.entry? (directory ++ [file.fileName]) =
      files.entry? (directory ++ [file.fileName])) :
    readOrEmpty other directory.text file = readOrEmpty files directory.text file := by
  have located := alike.locate (Path.join directory.text file.fileName)
  have present := alike.pathExists (Path.join directory.text file.fileName)
  have text : other.readText (Path.join directory.text file.fileName) =
      files.readText (Path.join directory.text file.fileName) := by
    unfold FileTree.readText FileTree.readBytes
    rw [← located]
    cases found : files.locate (Path.join directory.text file.fileName) with
    | error e => rfl
    | ok location =>
      obtain ⟨piece, named⟩ := DescriptorFile.isPiece file
      obtain rfl := FileTree.eq_of_locate reached piece named
        (plain.entry?_ne_link directory file) found
      have content : other.contentAt (directory ++ [file.fileName]) =
          files.contentAt (directory ++ [file.fileName]) := by
        rw [FileTree.contentAt, FileTree.contentAt, held]
      simp only [bind, Except.bind, content]
  simp only [readOrEmpty, Descriptor.read, ← present, text]

/-- Writing the contract of a directory anew, without the link, takes the link away and nothing
else. -/
theorem Undeclared.of_rewrite {executable : Bool} {content : List Nat}
    (kind : key = "sources" ∨ key = "targets") (plain : Unlinked files)
    (present : ∃ e ∈ files.entries, e.1 = spot ++ [DescriptorFile.contract.fileName])
    (held : ∀ e ∈ files.entries, e.1 = spot ++ [DescriptorFile.contract.fileName] →
      ∃ content, e.2 = .file content executable)
    (contract : ∃ ms members, readOrEmpty files spot.text .contract = .ok ms ∧
      Members.get? key ms = some (.object members) ∧
      readOrEmpty (files.put (spot ++ [DescriptorFile.contract.fileName]) (.file content executable))
        spot.text .contract = .ok (Members.put key (.object (Members.erase label members)) ms)) :
    Undeclared files (files.put (spot ++ [DescriptorFile.contract.fileName])
      (.file content executable)) spot key label := by
  have alike := FileTree.Alike.rewrite present held content
  refine ⟨kind, ?resolved, ?read, contract⟩
  case resolved =>
    intro directory _ link
    simp only [resolveLink, alike.canonical, ne_eq, alike.isDirectory_iff]
  case read =>
    intro directory reached file apart
    refine readOrEmpty_congr alike plain reached file (FileTree.entry?_put_of_ne ?_ files _)
    intro same
    obtain ⟨rfl, name⟩ := List.append_inj' same rfl
    refine apart ⟨rfl, ?_⟩
    cases file with
    | contract => rfl
    | _ => exact absurd name (by decide)

end Rewrite

/-! ## Loading -/

/-- How loading a directory goes, whatever is being visited. -/
structure Loads (files : FileTree) (visiting : List Location) (directory : Location) : Prop where
  /-- A link that is followed leads to a directory strictly below. -/
  descends : ∀ link target,
    followLink files (visiting ++ [directory]) directory link = .ok target →
      Descends files directory target
  /-- A link back to the directory is none that is followed. -/
  itself : ∀ link, resolveLink files directory.text link = .ok directory →
    followLink files (visiting ++ [directory]) directory link =
      .error (.link (.cycle link directory.text))
  terminates : Acc (Calls files) (visiting, directory)
  /-- Steps run out for no directory that is not deeper than the tree is high. -/
  unbounded : ∀ fuel, files.height - directory.length < fuel →
    loadTree files fuel visiting directory =
        loadTree files (files.height - directory.length + 1) visiting directory ∧
      loadTree files fuel visiting directory =
        loadWith files (loadTree files fuel) visiting directory
  /-- With one stack for the whole run, what is on it afterwards is what was on it before. -/
  stack : ∀ fuel, loadStack files fuel directory visiting =
    (loadTree files fuel visiting directory, visiting)
  /-- Only the directory's own files can keep it from loading. -/
  fails : ∀ fuel, (∃ e, loadTree files (fuel + 1) visiting directory = .error e) ↔
    ∃ file, Unreadable files directory file
  /-- A broken link, here or below, might as well not be declared. -/
  skips : ∀ other spot key label, Undeclared files other spot key label →
    Broken files visiting spot key label → ∀ fuel,
      loadTree other fuel visiting directory = loadTree files fuel visiting directory

theorem loadTree_loads {files : FileTree} {directory : Location}
    (reached : files.Reached directory) (visiting : List Location) :
    Loads files visiting directory where
  descends _ _ := followLink_descends reached
  itself := by
    intro link resolved
    have seen : (visiting ++ [directory]).contains directory = true :=
      List.contains_iff_mem.mpr (List.mem_append_right _ (List.mem_singleton.mpr rfl))
    simp only [followLink, resolved, bind, Except.bind, seen, if_true]
  terminates := acc_calls reached visiting
  unbounded := by
    intro fuel enough
    refine ⟨?_, loadTree_unbounded reached enough⟩
    obtain ⟨more, rfl⟩ := Nat.exists_eq_add_of_lt enough
    induction more with
    | zero => rfl
    | succ more ih =>
      have deep : files.height - directory.length <
          files.height - directory.length + more + 1 := by omega
      exact (loadTree_add reached deep).trans (ih deep)
  stack _ := loadStack_eq files _ directory visiting
  fails _ := loadTree_fails_iff
  skips := by
    intro other spot key label undeclared broken fuel
    have loaded := loadTree_of_above undeclared broken reached (Above.nil directory) fuel
    rwa [List.append_nil] at loaded

/-- A directory with a source that loads and a target that does not. -/
def orchard : FileTree where
  entries :=
    [(["contract.json"], .ofText
        "\x7b\"sources\": \x7b\"s\": \"s\"\x7d, \"targets\": \x7b\"b\": \"b\"\x7d\x7d" false),
      (["s"], .directory),
      (["s", "commands.json"], .ofText "\x7b\"x\": \x7b\x7d\x7d" false),
      (["b"], .directory),
      (["b", "commands.json"], .ofText "[]" false)]
  workingDirectory := []

def pruned : FileTree :=
  orchard.put ["contract.json"]
    (.ofText "\x7b\"sources\": \x7b\"s\": \"s\"\x7d, \"targets\": \x7b\x7d\x7d" false)

theorem orchard_contract : readOrEmpty orchard (Location.text []) .contract =
    .ok [("sources", .object [("s", .string "s")]), ("targets", .object [("b", .string "b")])] :=
  Descriptor.readOrEmpty_present ((FileTree.locate_eq_walkAll (by decide)).trans (by rfl)) rfl
    (by cbv) (by cbv) (by cbv)

theorem pruned_contract : readOrEmpty pruned (Location.text []) .contract =
    .ok [("sources", .object [("s", .string "s")]), ("targets", .object [])] :=
  Descriptor.readOrEmpty_present ((FileTree.locate_eq_walkAll (by decide)).trans (by rfl)) rfl
    (by cbv) (by cbv) (by cbv)

theorem undeclared_pruned : Undeclared orchard pruned [] "targets" "b" := by
  have plain : Unlinked orchard := by
    intro e he target link
    have none : ∀ e ∈ orchard.entries, ∀ target, e.2 ≠ .link target := by
      simp [orchard, FileEntry.ofText]
    exact absurd link (none e he target)
  have held : ∀ e ∈ orchard.entries, e.1 = [] ++ [DescriptorFile.contract.fileName] →
      ∃ content, e.2 = .file content false := by
    simp [orchard, FileEntry.ofText, DescriptorFile.fileName]
  exact Undeclared.of_rewrite (.inr rfl) plain ⟨_, List.mem_cons_self, rfl⟩ held
    ⟨_, [("b", .string "b")], orchard_contract, rfl, pruned_contract⟩

theorem orchard_unreadable : Unreadable orchard ["b"] .commands := by
  have located : orchard.locate (Path.join (Location.text ["b"]) "commands.json") =
      .ok ["b", "commands.json"] := (FileTree.locate_eq_walkAll (by decide)).trans (by rfl)
  have held : orchard.entry? ["b", "commands.json"] = some (.ofText "[]" false) := rfl
  have decoded : Text.ofUtf8? (Text.utf8 "[]") = some "[]" := by cbv
  have visible : "[]".isBlankText = false := by cbv
  have parsed : Value.ofJson? "[]" = some (.array []) := by cbv
  constructor
  · simp [FileTree.pathExists, FileTree.target?, DescriptorFile.fileName, located, held]
  · intro text read
    simp [FileTree.readText, FileTree.readBytes, FileTree.contentAt, FileEntry.ofText,
      DescriptorFile.fileName, located, held, decoded, bind, Except.bind] at read
    subst read
    exact ⟨visible, by simp [parsed]⟩

theorem broken_orchard : Broken orchard [] [] "targets" "b" := by
  intro ms link read declared
  obtain rfl := Except.ok.inj (orchard_contract.symm.trans read)
  obtain rfl : link = "b" := by simpa [links, Members.get?, Value.string?] using declared
  have top : orchard.canonical (Location.text []) = .ok [] :=
    (FileTree.canonical_eq_walkAll (by decide)).trans (by rfl)
  have below : orchard.canonical (Path.join (Location.text []) "b") = .ok ["b"] :=
    (FileTree.canonical_eq_walkAll (by decide)).trans (by rfl)
  have visible : "b".isBlankText = false := by cbv
  have relative : Path.isAbsolute "b" = false := by decide
  have inside : Descriptor.escapesFrom 0 (Path.components "b") = false := by decide
  have found : orchard.entry? ["b"] = some .directory := rfl
  have followed : followLink orchard [[]] [] "b" = .ok ["b"] := by
    simp [followLink, resolveLink, visible, relative, inside, top, below, found, bind, Except.bind]
  have fails : ∃ e, loadTree orchard (0 + 1) [[]] ["b"] = .error e :=
    loadTree_fails_iff.mpr ⟨.commands, orchard_unreadable⟩
  obtain ⟨e, fails⟩ := fails
  refine ⟨0, e, ?_⟩
  rw [childOf, List.nil_append, followed]
  exact fails

theorem loadTree_loads_orchard : orchard.Reached [] ∧ Loads orchard [] [] ∧
    Undeclared orchard pruned [] "targets" "b" ∧ Broken orchard [] [] "targets" "b" ∧
      ∀ fuel, loadTree pruned fuel [] [] = loadTree orchard fuel [] [] :=
  ⟨.top, loadTree_loads .top [], undeclared_pruned, broken_orchard,
    (loadTree_loads .top []).skips pruned [] "targets" "b" undeclared_pruned broken_orchard⟩

end RawManifest

end CommandContract
