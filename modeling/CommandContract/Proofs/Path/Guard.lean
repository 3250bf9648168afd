import CommandContract.Descriptor
import CommandContract.Proofs.Path.Join

set_option autoImplicit false

/-!
# Paths that stay below a directory

A link is tested by counting how deep each of its leading runs leads, a path is joined by keeping
the names that no `..` takes away. `Descriptor.guard_agrees` says that the test rejects exactly the
links of which some leading run, joined to a directory, is not below it, and that a link that passes
is joined to the directory by the names that remain of it.
-/
namespace CommandContract

namespace Path

variable {cs ds : List Component} {names before : List String} {name base path : String}

/-! ## What remains of a run of components -/

/-- Every name of the run has its `..` in the run, and the other way round. -/
inductive Cancelled : List Component → Prop
  | nil : Cancelled []
  | current {cs : List Component} (rest : Cancelled cs) : Cancelled (.current :: cs)
  | pair {name : String} {inner cs : List Component} (inside : Cancelled inner)
      (rest : Cancelled cs) : Cancelled (.name name :: (inner ++ .parent :: cs))

/-- The names that remain after every `..` took away the nearest name before it that was left. -/
inductive Remain : List Component → List String → Prop
  | nil {cs : List Component} (all : Cancelled cs) : Remain cs []
  | name {name : String} {cs ds : List Component} {names : List String} (before : Cancelled cs)
      (rest : Remain ds names) : Remain (cs ++ .name name :: ds) (name :: names)

theorem Cancelled.append (h : Cancelled cs) (h' : Cancelled ds) : Cancelled (cs ++ ds) := by
  induction h with
  | nil => exact h'
  | current _ ih => exact .current ih
  | @pair name inner cs inside _ _ ih =>
    have moved : .name name :: (inner ++ .parent :: cs) ++ ds =
        .name name :: (inner ++ .parent :: (cs ++ ds)) := by simp
    rw [moved]
    exact .pair inside ih

theorem Remain.cancelled (h : Remain cs []) : Cancelled cs := by
  cases h with
  | nil all => exact all

theorem Remain.append_current (h : Remain cs names) : Remain (cs ++ [.current]) names := by
  induction h with
  | nil all => exact .nil (all.append (.current .nil))
  | name before _ ih =>
    rw [List.append_assoc, List.cons_append]
    exact .name before ih

theorem Remain.append_name (h : Remain cs names) (name : String) :
    Remain (cs ++ [.name name]) (names ++ [name]) := by
  induction h with
  | nil all => exact .name all (.nil .nil)
  | name before _ ih =>
    rw [List.append_assoc, List.cons_append]
    exact .name before ih

theorem Remain.append_parent (h : Remain cs (names ++ [name])) :
    Remain (cs ++ [.parent]) names := by
  generalize whole : names ++ [name] = all at h
  induction h generalizing names with
  | nil => simp at whole
  | @name first cs ds others before rest ih =>
    rw [List.append_assoc, List.cons_append]
    cases names with
    | nil =>
      -- the last name that is left goes away, and with it all that stands behind it
      obtain ⟨-, rfl⟩ := List.cons.inj whole
      exact .nil (before.append (.pair rest.cancelled .nil))
    | cons _ names =>
      obtain ⟨rfl, left⟩ := List.cons.inj whole
      exact .name before (ih left)

theorem Cancelled.resolveNames_eq (h : Cancelled cs) (before : List String) :
    resolveNames before cs = before := by
  induction h generalizing before with
  | nil => rfl
  | current _ ih => exact ih before
  | @pair name inner cs _ _ inside ih =>
    rw [resolveNames, resolveNames_append, inside, resolveNames, List.dropLast_concat, ih]

theorem Remain.resolveNames_eq (h : Remain cs names) (before : List String) :
    resolveNames before cs = before ++ names := by
  induction h generalizing before with
  | nil all => rw [all.resolveNames_eq, List.append_nil]
  | name first _ ih =>
    rw [resolveNames_append, first.resolveNames_eq, resolveNames, ih, List.append_assoc]
    rfl

end Path

namespace Descriptor

open CommandContract.Path

variable {cs run : List Component} {names base : List String} {path link : String}

/-! ## The depth counts the names -/

/-- The depth after one component is the number of names that are left after it. -/
theorem escapesFrom_cons (names : List String) (c : Component) (cs : List Component) :
    escapesFrom names.length (c :: cs) = false ↔
      (c = .parent → names ≠ []) ∧ escapesFrom (resolveNames names [c]).length cs = false := by
  cases c with
  | parent =>
    cases names using List.reverseRecOn with
    | nil => simp [escapesFrom]
    | append_singleton names name => simp [escapesFrom, resolveNames]
  | name text =>
    have deeper : ¬ (names.length : Int) + 1 < 0 := by omega
    simp [escapesFrom, resolveNames, deeper]
  | root => simp [escapesFrom, resolveNames]
  | current => simp [escapesFrom, resolveNames]

theorem resolveNames_cons (names : List String) (c : Component) (cs : List Component) :
    resolveNames names (c :: cs) = resolveNames (resolveNames names [c]) cs :=
  resolveNames_append names [c] cs

theorem escapesFrom_of_prefix (names : List String) (h : run <+: cs)
    (inside : escapesFrom names.length cs = false) : escapesFrom names.length run = false := by
  induction run generalizing cs names with
  | nil => rfl
  | cons c run ih =>
    obtain ⟨more, rfl⟩ := h
    rw [List.cons_append, escapesFrom_cons] at inside
    rw [escapesFrom_cons]
    exact ⟨inside.1, ih _ (List.prefix_append run more) inside.2⟩

/-- A component that stays inside takes no name of the directory away. -/
theorem resolveNames_one (base : List String) {c : Component} (h : c = .parent → names ≠ []) :
    resolveNames (base ++ names) [c] = base ++ resolveNames names [c] := by
  cases c with
  | parent => exact List.dropLast_append_of_ne_nil (h rfl)
  | name text => exact List.append_assoc base names [text]
  | root => rfl
  | current => rfl

theorem resolveNames_below (base : List String) (inside : escapesFrom names.length cs = false) :
    resolveNames (base ++ names) cs = base ++ resolveNames names cs := by
  induction cs generalizing names with
  | nil => rfl
  | cons c cs ih =>
    rw [escapesFrom_cons] at inside
    rw [resolveNames_cons, resolveNames_one base inside.1, ih inside.2, ← resolveNames_cons]

/-- Where the depth falls below zero first, the last name of the directory is taken away. -/
theorem exists_run_of_escapesFrom (base names : List String)
    (h : escapesFrom names.length cs = true) :
    ∃ run, run <+: cs ∧ resolveNames (base ++ names) run = base.dropLast := by
  induction cs generalizing names with
  | nil => cases h
  | cons c cs ih =>
    by_cases inside : c = .parent → names ≠ []
    · have below : escapesFrom (resolveNames names [c]).length cs = true := by
        rw [← Bool.not_eq_false] at h ⊢
        exact fun stays => h ((escapesFrom_cons names c cs).mpr ⟨inside, stays⟩)
      obtain ⟨run, hr, out⟩ := ih _ below
      refine ⟨c :: run, List.cons_prefix_cons.mpr ⟨rfl, hr⟩, ?_⟩
      rw [resolveNames_cons, resolveNames_one base inside, out]
    · rw [Classical.not_imp, not_not] at inside
      obtain ⟨rfl, rfl⟩ := inside
      refine ⟨[.parent], List.cons_prefix_cons.mpr ⟨rfl, List.nil_prefix⟩, ?_⟩
      rw [List.append_nil]
      rfl

theorem remain_append {before : List Component} {c : Component} (h : Remain before names)
    (inside : c = .parent → names ≠ []) (relative : c ≠ .root) :
    Remain (before ++ [c]) (resolveNames names [c]) := by
  cases c with
  | name text => exact h.append_name text
  | parent =>
    rw [← List.dropLast_concat_getLast (inside rfl)] at h
    exact h.append_parent
  | root => exact absurd rfl relative
  | current => exact h.append_current

/-- Something remains of every run that stays inside. -/
theorem exists_remain_append {before : List Component} (names : List String)
    (h : Remain before names) (inside : escapesFrom names.length cs = false)
    (relative : .root ∉ cs) : ∃ left, Remain (before ++ cs) left := by
  induction cs generalizing before names with
  | nil => exact ⟨names, by rwa [List.append_nil]⟩
  | cons c cs ih =>
    rw [escapesFrom_cons] at inside
    rw [List.mem_cons, not_or] at relative
    obtain ⟨left, hl⟩ := ih _ (remain_append h inside.1 (Ne.symm relative.1)) inside.2 relative.2
    exact ⟨left, by rwa [List.append_assoc] at hl⟩

/-! ## Leading runs of a link -/

/-- Some leading run of a link, joined to a directory, is not below it. -/
def Strays (directory link : String) : Prop :=
  ∃ run, components run <+: components link ∧
    ¬ components directory <+: components (normalizeJoin directory run)

/-- The normalized path of a directory is known by its names. -/
structure Normal (directory : String) (names : List String) : Prop where
  components_eq : components directory = .root :: names.map .name

/-- A leading run of the steps of a link is written by a leading part of its text. -/
theorem exists_path_of_steps (relative : Path.isAbsolute link = false) (h : run <+: steps link)
    (nonempty : run ≠ []) : ∃ path, Path.isAbsolute path = false ∧ steps path = run ∧
      components path <+: components link := by
  obtain ⟨pieces, leading, rfl⟩ := List.prefix_filterMap_iff.mp h
  have some_piece : pieces ≠ [] := fun he => nonempty (by rw [he]; rfl)
  have cut := Text.splitOn_intercalate some_piece fun piece hp =>
    Text.not_mem_of_mem_splitOn (leading.subset hp)
  have text : (String.ofList (['/'].intercalate pieces)).toList = ['/'].intercalate pieces :=
    String.toList_ofList
  have written : ['/'].intercalate pieces <+: link.toList := by
    rw [← Text.intercalate_splitOn '/' link.toList]
    exact Text.intercalate_prefix leading
  have relative' : Path.isAbsolute (String.ofList (['/'].intercalate pieces)) = false := by
    rw [← Bool.not_eq_true] at relative ⊢
    intro absolute
    obtain ⟨rest, begins⟩ := List.head?_eq_some_iff.mp (of_decide_eq_true absolute)
    obtain ⟨more, whole⟩ := written
    refine relative (decide_eq_true ?_)
    rw [← whole, ← text, begins]
    rfl
  have same_start : start (String.ofList (['/'].intercalate pieces)) = start link := by
    obtain ⟨others, whole⟩ := leading
    obtain ⟨first, rest, rfl⟩ := List.exists_cons_of_ne_nil some_piece
    rw [start, start, relative, relative', text, cut, ← whole]
    rfl
  have same_steps : steps (String.ofList (['/'].intercalate pieces)) =
      pieces.filterMap component? := by
    rw [steps, text, cut]
  refine ⟨_, relative', same_steps, ?_⟩
  rw [components_eq, components_eq, same_start, same_steps]
  exact (List.prefix_append_right_inj _).mpr h

variable {directory : String}

theorem Normal.isAbsolute (h : Normal directory base) : Path.isAbsolute directory = true := by
  rw [← root_mem_components_iff, h.components_eq]
  exact List.mem_cons_self

theorem Normal.isName (h : Normal directory base) : ∀ name ∈ base, IsName name := by
  intro name hn
  have member : .name name ∈ components directory := by
    rw [h.components_eq]
    exact List.mem_cons_of_mem _ (List.mem_map_of_mem hn)
  exact isName_of_mem_components member

theorem Normal.normalizeJoin_eq (h : Normal directory base)
    (relative : Path.isAbsolute path = false) :
    normalizeJoin directory path = ofNames true (resolveNames base (components path)) := by
  have own : resolveNames [] (components directory) = base := by
    rw [h.components_eq, resolveNames_cons, resolveNames_names]
    rfl
  rw [normalizeJoin_of_relative directory relative, h.isAbsolute, own]

theorem Normal.components_join (h : Normal directory base)
    (relative : Path.isAbsolute path = false) :
    components (normalizeJoin directory path) =
      .root :: (resolveNames base (components path)).map .name := by
  rw [h.normalizeJoin_eq relative, components_ofNames]
  · rfl
  · exact isName_of_mem_resolveNames h.isName fun _ => isName_of_mem_components

theorem Normal.below_iff (h : Normal directory base) (relative : Path.isAbsolute path = false) :
    components directory <+: components (normalizeJoin directory path) ↔
      base <+: resolveNames base (components path) := by
  rw [h.components_join relative, h.components_eq, List.cons_prefix_cons, and_iff_right rfl]
  exact List.prefix_map_iff_of_injective fun _ _ => Component.name.inj

theorem escapesFrom_components (relative : Path.isAbsolute link = false) :
    escapesFrom 0 (components link) = escapesFrom 0 (steps link) := by
  rw [components_eq]
  rcases start_of_relative relative with he | he <;> rw [he] <;> rfl

theorem isAbsolute_of_components_prefix (relative : Path.isAbsolute link = false)
    (h : components path <+: components link) : Path.isAbsolute path = false := by
  rw [← Bool.not_eq_true, ← root_mem_components_iff] at relative ⊢
  exact fun top => relative (h.subset top)

theorem escapesFrom_iff_strays (normal : Normal directory base) (nonempty : base ≠ [])
    (relative : Path.isAbsolute link = false) :
    escapesFrom 0 (components link) = true ↔ Strays directory link := by
  constructor
  · intro escapes
    rw [escapesFrom_components relative] at escapes
    obtain ⟨run, leading, out⟩ := exists_run_of_escapesFrom base [] escapes
    rw [List.append_nil] at out
    have shorter : base.dropLast.length < base.length := by
      rw [List.length_dropLast]
      have := List.length_pos_of_ne_nil nonempty
      omega
    have moved : run ≠ [] := by
      rintro rfl
      rw [← out, resolveNames] at shorter
      exact Nat.lt_irrefl _ shorter
    obtain ⟨path, hp, written, first⟩ := exists_path_of_steps relative leading moved
    refine ⟨path, first, fun below => ?_⟩
    rw [normal.below_iff hp, resolveNames_components, written, out] at below
    exact Nat.not_lt.mpr below.length_le shorter
  · rintro ⟨path, first, outside⟩
    rw [← Bool.not_eq_false]
    intro inside
    have hp := isAbsolute_of_components_prefix relative first
    have stays := escapesFrom_of_prefix [] first inside
    have below := resolveNames_below base stays
    rw [List.append_nil] at below
    refine outside ((normal.below_iff hp).mpr ?_)
    rw [below]
    exact List.prefix_append base _

/-! ## Resolving -/

theorem parent_not_mem_of_blank (blank : link.isBlankText = true) : .parent ∉ steps link := by
  intro h
  obtain ⟨piece, hp, hc⟩ := List.mem_filterMap.mp h
  have dots : piece = ['.', '.'] := by
    unfold component? at hc
    split at hc
    · cases hc
    · split at hc
      · assumption
      · cases hc
  have dot : '.' ∈ link.toList := by
    refine Text.mem_of_mem_piece hp ?_
    rw [dots]
    exact List.mem_cons_self
  exact absurd (List.all_eq_true.mp blank '.' dot) (by decide)

theorem escapesFrom_of_not_mem (names : List String) (h : .parent ∉ cs) :
    escapesFrom names.length cs = false := by
  induction cs generalizing names with
  | nil => rfl
  | cons c cs ih =>
    rw [List.mem_cons, not_or] at h
    exact (escapesFrom_cons names c cs).mpr ⟨fun he => absurd he.symm h.1, ih _ h.2⟩

theorem resolveLink_escapes_iff (files : FileTree) (directory : String)
    (relative : Path.isAbsolute link = false) :
    resolveLink files directory link = .error (.link (.escapes link directory)) ↔
      escapesFrom 0 (components link) = true := by
  unfold resolveLink
  split
  · rename_i blank
    refine iff_of_false nofun ?_
    rw [escapesFrom_components relative, Bool.not_eq_true]
    exact escapesFrom_of_not_mem [] (parent_not_mem_of_blank blank)
  · rw [relative, if_neg Bool.false_ne_true]
    split
    · rename_i escapes
      exact iff_of_true rfl escapes
    · rename_i inside
      refine iff_of_false ?_ inside
      split
      · exact nofun
      · split
        · exact nofun
        · split
          · exact nofun
          · split <;> exact nofun

/-! ## The test and the join -/

theorem components_normalizeJoin (directory : String) (relative : Path.isAbsolute link = false)
    (h : Remain (components link) names) :
    components (normalizeJoin directory link) =
      components (normalizeJoin directory "") ++ names.map .name := by
  have nowhere : Path.isAbsolute "" = false := rfl
  have own : ∀ name ∈ resolveNames [] (components directory), IsName name :=
    isName_of_mem_resolveNames (List.forall_mem_nil _) fun _ => isName_of_mem_components
  have all : ∀ name ∈ resolveNames (resolveNames [] (components directory)) (components link),
      IsName name := isName_of_mem_resolveNames own fun _ => isName_of_mem_components
  rw [normalizeJoin_of_relative directory relative, components_ofNames _ all,
    normalizeJoin_of_relative directory nowhere, h.resolveNames_eq, List.map_append,
    ← List.append_assoc, ← components_ofNames _ own]
  rfl

theorem of_mem_normalizeJoin {c : Component} (h : c ∈ components (normalizeJoin directory path)) :
    c ≠ .current ∧ c ≠ .parent := by
  obtain ⟨names, hn, joined⟩ := normalizeJoin_names directory path
  rw [joined, components_ofNames _ hn, List.mem_append] at h
  rcases h with h | h
  · split at h
    · obtain rfl := List.mem_singleton.mp h
      exact ⟨nofun, nofun⟩
    · cases h
  · obtain ⟨name, -, rfl⟩ := List.mem_map.mp h
    exact ⟨nofun, nofun⟩

/-- The test and the join agree. A link is refused exactly if some leading run of it, joined to the
directory, strays from it; a joined path has no `.` and no `..`; and a link that passes is joined by
the names that remain when every `..` takes away the last one in front of it. -/
theorem guard_agrees :
    (∀ directory base link, Normal directory base → base ≠ [] → Path.isAbsolute link = false →
      (escapesFrom 0 (components link) = true ↔ Strays directory link) ∧
        ∀ files place, resolveLink files place link = .error (.link (.escapes link place)) ↔
          Strays directory link) ∧
      (∀ directory path,
        (∀ c ∈ components (normalizeJoin directory path), c ≠ .current ∧ c ≠ .parent) ∧
          (Path.isAbsolute directory = true →
            Path.isAbsolute (normalizeJoin directory path) = true)) ∧
      ∀ directory link, Path.isAbsolute link = false →
        escapesFrom 0 (components link) = false →
          (∃ names, Remain (components link) names) ∧
            ∀ names, Remain (components link) names →
              components (normalizeJoin directory link) =
                  components (normalizeJoin directory "") ++ names.map .name ∧
                ∀ base, Normal directory base →
                  normalizeJoin directory link = ofNames true (base ++ names) := by
  refine ⟨?guard, ?normal, ?joined⟩
  case guard =>
    intro directory base link normal nonempty relative
    have strays := escapesFrom_iff_strays normal nonempty relative
    exact ⟨strays, fun files place => (resolveLink_escapes_iff files place relative).trans strays⟩
  case normal =>
    intro directory path
    exact ⟨fun _ => of_mem_normalizeJoin, fun top => isAbsolute_normalizeJoin top path⟩
  case joined =>
    intro directory link relative inside
    have top : .root ∉ components link := fun h => by
      rw [root_mem_components_iff, relative] at h
      cases h
    have left : ∃ names, Remain ([] ++ components link) names :=
      exists_remain_append [] (.nil .nil) inside top
    refine ⟨left, fun names remain => ⟨?_, ?_⟩⟩
    · exact components_normalizeJoin directory relative remain
    · intro base normal
      rw [normal.normalizeJoin_eq relative, remain.resolveNames_eq]

/-- A link that leads out and back in strays, one that leads through a name and back does not. -/
theorem guard_agrees_workshop :
    Normal "/project/root" ["project", "root"] ∧ Strays "/project/root" "lib/../../root" ∧
      resolveLink ⟨[], []⟩ "/project/root" "lib/../../root" =
        .error (.link (.escapes "lib/../../root" "/project/root")) ∧
      Remain (components "./bin/../tools/run.sh") ["tools", "run.sh"] ∧
      normalizeJoin "/project/root" "./bin/../tools/run.sh" =
        ofNames true (["project", "root"] ++ ["tools", "run.sh"]) := by
  have normal : Normal "/project/root" ["project", "root"] := ⟨by decide⟩
  have remain : Remain (components "./bin/../tools/run.sh") ["tools", "run.sh"] :=
    .name (.current (.pair .nil .nil)) (.name .nil (.nil .nil))
  obtain ⟨guard, -, joined⟩ := guard_agrees
  obtain ⟨depth, link⟩ := guard _ _ "lib/../../root" normal (by decide) (by decide)
  have strays := depth.mp (by decide)
  refine ⟨normal, strays, (link _ _).mpr strays, remain, ?_⟩
  exact ((joined _ _ (by decide) (by decide)).2 _ remain).2 _ normal

end Descriptor

end CommandContract
