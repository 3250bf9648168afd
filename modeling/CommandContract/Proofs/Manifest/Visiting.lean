import CommandContract.Proofs.Manifest.Load

set_option autoImplicit false

/-!
# How loading comes to an end

A link that is followed leads to a directory strictly below the one that declares it, so every
chain of calls ends, and a bound on the steps that is not less than the height of the tree makes no
difference. A directory fails to load only by its own files. `loadStack` keeps the directories that
are being visited on one stack for the whole run; it leaves the stack as it found it, whether it
succeeds or not, and gives what `loadTree` gives.
-/
namespace CommandContract

open Descriptor (readOrEmpty resolveLink)

/-! ## Files that cannot be read -/

/-- A descriptor file that is there and holds no JSON object. A blank file counts as the empty
object. -/
structure Unreadable (files : FileTree) (directory : Location) (file : DescriptorFile) : Prop where
  present : files.pathExists (Path.join directory.text file.fileName) = true
  noObject : ∀ text, files.readText (Path.join directory.text file.fileName) = .ok text →
    text.isBlankText = false ∧ ∀ ms, Value.ofJson? text ≠ some (.object ms)

theorem unreadable_iff {files : FileTree} {directory : Location} {file : DescriptorFile} :
    Unreadable files directory file ↔ ∃ e, readOrEmpty files directory.text file = .error e := by
  have failing : (∃ e, readOrEmpty files directory.text file = .error e) ↔
      ∃ e, Descriptor.read files directory.text file = .error e := by
    unfold readOrEmpty
    cases Descriptor.read files directory.text file <;> simp [Except.map]
  rw [failing, Descriptor.read]
  cases hp : files.pathExists (Path.join directory.text file.fileName) with
  | false =>
    refine iff_of_false (fun h => ?_) (by simp)
    exact Bool.false_ne_true (hp.symm.trans h.present)
  | true =>
    cases ht : files.readText (Path.join directory.text file.fileName) with
    | error cause =>
      refine iff_of_true ⟨hp, ?_⟩ (by simp)
      intro text read
      rw [ht] at read
      cases read
    | ok text =>
      have noObject : Unreadable files directory file ↔
          text.isBlankText = false ∧ ∀ ms, Value.ofJson? text ≠ some (.object ms) := by
        refine ⟨fun h => h.noObject text ht, fun h => ⟨hp, fun _ read => ?_⟩⟩
        rw [ht] at read
        rwa [← Except.ok.inj read]
      rw [noObject]
      cases hb : text.isBlankText with
      | true => simp [hb]
      | false =>
        cases hv : Value.ofJson? text with
        | none => simp [hb, hv]
        | some v => cases v <;> simp [hb, hv]

namespace RawManifest

variable {files : FileTree} {visiting : List Location} {directory target : Location}
  {link : String} {fuel : Nat}

theorem composeCommands_fails_iff : (∃ e, composeCommands files directory.text = .error e) ↔
    ∃ file ∈ commandFiles, Unreadable files directory file := by
  have run : ∀ (kinds : List DescriptorFile) (commands : Members Value),
      (∃ e, kinds.foldlM (fun commands file =>
        (readOrEmpty files directory.text file).map (composeFile commands file)) commands =
          .error e) ↔ ∃ file ∈ kinds, Unreadable files directory file := by
    intro kinds
    induction kinds with
    | nil => simp [pure, Except.pure]
    | cons file kinds ih =>
      intro commands
      rw [List.foldlM_cons, List.exists_mem_cons_iff, unreadable_iff]
      cases hr : readOrEmpty files directory.text file with
      | error e => simp [Except.map, bind, Except.bind]
      | ok entries =>
        rw [← ih (composeFile commands file entries)]
        simp [Except.map, bind, Except.bind]
  exact run commandFiles []

/-! ## One directory -/

/-- Merges what the links lead to; a link whose child fails is passed over. -/
def mergeLinks (child : String → Except LoadError RawManifest)
    (merge : RawManifest → String → RawManifest → RawManifest) (raw : RawManifest)
    (ls : List (String × String)) : RawManifest :=
  ls.foldl
    (fun raw l =>
      match child l.2 with
      | .ok found => merge raw l.1 found
      | .error _ => raw)
    raw

theorem mergeLinks_skip {child : String → Except LoadError RawManifest} {label : String}
    {e : LoadError} (failing : child link = .error e)
    (merge : RawManifest → String → RawManifest → RawManifest) (raw : RawManifest)
    (before after : List (String × String)) :
    mergeLinks child merge raw (before ++ (label, link) :: after) =
      mergeLinks child merge raw (before ++ after) := by
  unfold mergeLinks
  rw [List.foldl_append, List.foldl_append, List.foldl_cons, failing]

/-- Loads one directory, whose subtrees are loaded in a way that is left open. -/
def loadWith (files : FileTree) (load : List Location → Location → Except LoadError RawManifest)
    (visiting : List Location) (directory : Location) : Except LoadError RawManifest := do
  let contract ← readOrEmpty files directory.text .contract
  let commands ← composeCommands files directory.text
  let visiting := visiting ++ [directory]
  let child := fun link => do
    let target ← followLink files visiting directory link
    load visiting target
  let own := ownForm contract commands
  let withSources := mergeLinks child (fun raw _ source => mergeSource raw source) own
    (links "sources" contract)
  .ok (mergeLinks child (fun raw label target => mergeTarget raw target label) withSources
    (links "targets" contract))

theorem loadTree_eq_loadWith (files : FileTree) (fuel : Nat) (visiting : List Location)
    (directory : Location) : loadTree files (fuel + 1) visiting directory =
      loadWith files (loadTree files fuel) visiting directory := rfl

theorem loadTree_merges {contract commands : Members Value}
    (metadata : readOrEmpty files directory.text .contract = .ok contract)
    (composed : composeCommands files directory.text = .ok commands) :
    loadTree files (fuel + 1) visiting directory =
      .ok (mergeLinks (childOf files fuel (visiting ++ [directory]) directory)
        (fun raw label target => mergeTarget raw target label)
        (mergeLinks (childOf files fuel (visiting ++ [directory]) directory)
          (fun raw _ source => mergeSource raw source) (ownForm contract commands)
          (links "sources" contract))
        (links "targets" contract)) := loadTree_succ metadata composed

theorem loadWith_congr {load other : List Location → Location → Except LoadError RawManifest}
    (same : ∀ link target, followLink files (visiting ++ [directory]) directory link = .ok target →
      load (visiting ++ [directory]) target = other (visiting ++ [directory]) target) :
    loadWith files load visiting directory = loadWith files other visiting directory := by
  have child : ∀ link, (do
        let target ← followLink files (visiting ++ [directory]) directory link
        load (visiting ++ [directory]) target) = (do
        let target ← followLink files (visiting ++ [directory]) directory link
        other (visiting ++ [directory]) target) := by
    intro link
    cases followed : followLink files (visiting ++ [directory]) directory link with
    | error e => rfl
    | ok target => exact same link target followed
  simp only [loadWith, child]

theorem loadWith_fails_iff {load : List Location → Location → Except LoadError RawManifest} :
    (∃ e, loadWith files load visiting directory = .error e) ↔
      ∃ file, Unreadable files directory file := by
  have five : (∃ file, Unreadable files directory file) ↔
      Unreadable files directory .contract ∨
        ∃ file ∈ commandFiles, Unreadable files directory file := by
    constructor
    · rintro ⟨file, h⟩
      cases file with
      | contract => exact .inl h
      | _ => exact .inr ⟨_, by decide, h⟩
    · rintro (h | ⟨file, _, h⟩)
      · exact ⟨_, h⟩
      · exact ⟨file, h⟩
  rw [five, unreadable_iff, ← composeCommands_fails_iff, loadWith]
  cases readOrEmpty files directory.text .contract with
  | error e => simp [bind, Except.bind]
  | ok contract =>
    cases composeCommands files directory.text with
    | error e => simp [bind, Except.bind]
    | ok commands => simp [bind, Except.bind]

theorem loadTree_fails_iff : (∃ e, loadTree files (fuel + 1) visiting directory = .error e) ↔
    ∃ file, Unreadable files directory file := by
  rw [loadTree_eq_loadWith, loadWith_fails_iff]

/-! ## Calls -/

/-- Loading a directory calls for what its links lead to. -/
inductive Calls (files : FileTree) : List Location × Location → List Location × Location → Prop
  | follow {visiting : List Location} {directory target : Location} {contract : Members Value}
      {key label link : String} (kind : key = "sources" ∨ key = "targets")
      (read : readOrEmpty files directory.text .contract = .ok contract)
      (declared : (label, link) ∈ links key contract)
      (followed : followLink files (visiting ++ [directory]) directory link = .ok target) :
      Calls files (visiting ++ [directory], target) (visiting, directory)

/-- A link that is followed leads strictly down. -/
structure Descends (files : FileTree) (directory target : Location) : Prop where
  reached : files.Reached target
  isDirectory : files.entry? target = some .directory
  below : directory <+: target
  deeper : directory.length < target.length
  bounded : target.length ≤ files.height

theorem followLink_descends (reached : files.Reached directory)
    (h : followLink files (visiting ++ [directory]) directory link = .ok target) :
    Descends files directory target := by
  have seen : directory ∈ visiting ++ [directory] :=
    List.mem_append_right _ (List.mem_singleton.mpr rfl)
  obtain ⟨further, deeper, bounded⟩ := followLink_below h reached seen
  obtain ⟨found, resolved, h⟩ := Except.bind_eq_ok_iff.mp h
  obtain ⟨_, below, isDirectory⟩ := Descriptor.of_resolveLink reached resolved
  split at h
  · cases h
  · obtain rfl := Except.ok.inj h
    exact ⟨further, isDirectory, below, deeper, bounded⟩

/-- Calls end, since each leads further down and the tree has a height. -/
theorem acc_calls (reached : files.Reached directory) (visiting : List Location) :
    Acc (Calls files) (visiting, directory) := by
  induction hn : files.height - directory.length using Nat.strongRecOn
    generalizing visiting directory with
  | ind n ih =>
    refine ⟨_, ?_⟩
    rintro _ ⟨_, _, _, followed⟩
    have down := followLink_descends reached followed
    have deeper := down.deeper
    have bounded := down.bounded
    exact ih _ (by omega) down.reached _ rfl

theorem loadTree_add (reached : files.Reached directory)
    (enough : files.height - directory.length < fuel) :
    loadTree files (fuel + 1) visiting directory = loadTree files fuel visiting directory := by
  induction fuel generalizing visiting directory with
  | zero => omega
  | succ fuel ih =>
    rw [loadTree_eq_loadWith, loadTree_eq_loadWith]
    refine loadWith_congr fun link target followed => ?_
    -- one step less is left below a directory that is at least one level deeper
    have down := followLink_descends reached followed
    have deeper := down.deeper
    have bounded := down.bounded
    exact ih down.reached (by omega)

/-- With enough steps, loading a directory is what it is said to be without a bound: its subtrees
are loaded as it is loaded itself. -/
theorem loadTree_unbounded (reached : files.Reached directory)
    (enough : files.height - directory.length < fuel) :
    loadTree files fuel visiting directory =
      loadWith files (loadTree files fuel) visiting directory := by
  rw [← loadTree_eq_loadWith, loadTree_add reached enough]

/-! ## The stack of visited directories -/

/-- Merges what the links lead to, one after the other, over one stack. -/
def mergeStacked
    (child : String → List Location → Except LoadError RawManifest × List Location)
    (merge : RawManifest → String → RawManifest → RawManifest) (raw : RawManifest)
    (stack : List Location) (ls : List (String × String)) : RawManifest × List Location :=
  ls.foldl
    (fun (raw, stack) l =>
      match child l.2 stack with
      | (.ok found, stack) => (merge raw l.1 found, stack)
      | (.error _, stack) => (raw, stack))
    (raw, stack)

/-- Follows a link from a directory that is on top of the stack. -/
def followStack (files : FileTree)
    (load : Location → List Location → Except LoadError RawManifest × List Location)
    (directory : Location) (link : String) (stack : List Location) :
    Except LoadError RawManifest × List Location :=
  match followLink files stack directory link with
  | .error e => (.error e, stack)
  | .ok target => load target stack

/-- Loading with a stack: a directory is pushed before its links are followed, and what is on top
is popped when all of them have been. -/
def loadStack (files : FileTree) :
    Nat → Location → List Location → Except LoadError RawManifest × List Location
  | 0, _, stack => (.error (.file .tooManyLinks), stack)
  | fuel + 1, directory, stack =>
    match readOrEmpty files directory.text .contract with
    | .error e => (.error e, stack)
    | .ok contract =>
      match composeCommands files directory.text with
      | .error e => (.error e, stack)
      | .ok commands =>
        let child := followStack files (loadStack files fuel) directory
        let (raw, stack) := mergeStacked child (fun raw _ source => mergeSource raw source)
          (ownForm contract commands) (stack ++ [directory]) (links "sources" contract)
        let (raw, stack) := mergeStacked child (fun raw label target => mergeTarget raw target label)
          raw stack (links "targets" contract)
        (.ok raw, stack.dropLast)

theorem mergeStacked_eq
    {child : String → List Location → Except LoadError RawManifest × List Location}
    {stack : List Location} {plain : String → Except LoadError RawManifest}
    (same : ∀ link, child link stack = (plain link, stack))
    (merge : RawManifest → String → RawManifest → RawManifest) (raw : RawManifest)
    (ls : List (String × String)) :
    mergeStacked child merge raw stack ls = (mergeLinks plain merge raw ls, stack) := by
  induction ls generalizing raw with
  | nil => rfl
  | cons l ls ih =>
    unfold mergeStacked mergeLinks at ih ⊢
    rw [List.foldl_cons, List.foldl_cons]
    dsimp only
    rw [same]
    cases plain l.2 with
    | error e => exact ih raw
    | ok found => exact ih (merge raw l.1 found)

/-- The stack is afterwards what it was before. -/
theorem loadStack_eq (files : FileTree) (fuel : Nat) (directory : Location)
    (stack : List Location) :
    loadStack files fuel directory stack = (loadTree files fuel stack directory, stack) := by
  induction fuel generalizing directory stack with
  | zero => rfl
  | succ fuel ih =>
    rw [loadTree_eq_loadWith, loadStack, loadWith]
    cases readOrEmpty files directory.text .contract with
    | error e => rfl
    | ok contract =>
      cases composeCommands files directory.text with
      | error e => rfl
      | ok commands =>
        have child : ∀ link,
            followStack files (loadStack files fuel) directory link (stack ++ [directory]) =
              (followLink files (stack ++ [directory]) directory link >>=
                loadTree files fuel (stack ++ [directory]), stack ++ [directory]) := by
          intro link
          unfold followStack
          cases followLink files (stack ++ [directory]) directory link with
          | error e => rfl
          | ok target => exact ih target _
        simp only [mergeStacked_eq child, List.dropLast_concat]
        rfl

end RawManifest

end CommandContract
