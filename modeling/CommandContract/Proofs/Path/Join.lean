import CommandContract.Proofs.FileTree.Canonical

set_option autoImplicit false

/-!
# Components of joined paths

Joining a relative path to another one puts its components behind those of the other. A normalized
join is made of names only, so its components are these names: `Path.components_ofNames`.
-/
namespace CommandContract.Path

variable {path : String} {names : List String} {c : Component} {cs : List Component}

/-! ## Components of one path -/

/-- The text of a component that leads one directory down. -/
structure IsName (name : String) : Prop where
  piece : FileTree.IsPiece name
  plain : name ≠ "." ∧ name ≠ ".."

/-- The components that lead somewhere, without what stands for the beginning of the path. -/
def steps (path : String) : List Component :=
  (Text.splitOn '/' path.toList).filterMap component?

/-- What stands for the beginning of a path: its top or a dot in front, if it has one. -/
def start (path : String) : List Component :=
  if isAbsolute path then [.root]
  else if (Text.splitOn '/' path.toList).head? = some ['.'] then [.current] else []

theorem components_eq (path : String) : components path = start path ++ steps path := rfl

theorem component?_of_isName {name : String} (h : IsName name) :
    component? name.toList = some (.name name) := by
  have visible : ¬ (name.toList = [] ∨ name.toList = ['.']) := by
    rintro (nothing | dot)
    · exact h.piece.1 (String.toList_inj.mp nothing)
    · exact h.plain.1 (String.toList_inj.mp dot)
  have down : name.toList ≠ ['.', '.'] := fun dots => h.plain.2 (String.toList_inj.mp dots)
  rw [component?, if_neg visible, if_neg down, String.ofList_toList]

theorem of_component? {piece : List Char} (h : component? piece = some c) (apart : '/' ∉ piece) :
    c = .parent ∨ ∃ name, IsName name ∧ c = .name name := by
  unfold component? at h
  split at h
  · cases h
  · rename_i visible
    rw [not_or] at visible
    split at h
    · cases h
      exact .inl rfl
    · rename_i down
      cases h
      refine .inr ⟨_, ⟨⟨?_, ?_⟩, ?_, ?_⟩, rfl⟩
      · exact fun he => visible.1 (String.ofList_eq_empty_iff.mp he)
      · rwa [String.toList_ofList]
      · exact fun he => visible.2 (String.ofList_inj.mp he)
      · exact fun he => down (String.ofList_inj.mp he)

theorem of_mem_steps (h : c ∈ steps path) :
    c = .parent ∨ ∃ name, IsName name ∧ c = .name name := by
  obtain ⟨piece, hp, hc⟩ := List.mem_filterMap.mp h
  exact of_component? hc (Text.not_mem_of_mem_splitOn hp)

theorem start_of_relative (h : isAbsolute path = false) :
    start path = [] ∨ start path = [.current] := by
  rw [start, h, if_neg Bool.false_ne_true]
  split
  · exact .inr rfl
  · exact .inl rfl

theorem root_mem_components_iff : .root ∈ components path ↔ isAbsolute path = true := by
  have below : .root ∉ steps path := by
    intro h
    rcases of_mem_steps h with he | ⟨_, _, he⟩ <;> cases he
  rw [components_eq, List.mem_append, or_iff_left below]
  cases h : isAbsolute path with
  | true =>
    rw [start, h]
    exact iff_of_true List.mem_cons_self rfl
  | false =>
    refine iff_of_false (fun hm => ?_) Bool.false_ne_true
    rcases start_of_relative h with he | he <;> rw [he] at hm <;> simp at hm

theorem isName_of_mem_components {name : String} (h : .name name ∈ components path) :
    IsName name := by
  rw [components_eq, List.mem_append] at h
  rcases h with h | h
  · unfold start at h
    split at h
    · simp at h
    · split at h <;> simp at h
  · rcases of_mem_steps h with he | ⟨_, hn, he⟩
    · cases he
    · cases he
      exact hn

/-! ## Names that remain -/

theorem resolveNames_append (names : List String) (cs ds : List Component) :
    resolveNames names (cs ++ ds) = resolveNames (resolveNames names cs) ds := by
  induction cs generalizing names with
  | nil => rfl
  | cons c cs ih => cases c <;> exact ih _

theorem resolveNames_names (before names : List String) :
    resolveNames before (names.map .name) = before ++ names := by
  induction names generalizing before with
  | nil => exact (List.append_nil before).symm
  | cons name names ih =>
    rw [List.map_cons, resolveNames, ih, List.append_assoc]
    rfl

/-- The beginning of a path takes no name away. -/
theorem resolveNames_components (names : List String) (path : String) :
    resolveNames names (components path) = resolveNames names (steps path) := by
  rw [components_eq, start]
  split
  · rfl
  · split <;> rfl

theorem isName_of_mem_resolveNames (h : ∀ name ∈ names, IsName name)
    (hc : ∀ name, .name name ∈ cs → IsName name) :
    ∀ name ∈ resolveNames names cs, IsName name := by
  induction cs generalizing names with
  | nil => exact h
  | cons c cs ih =>
    have rest : ∀ name, .name name ∈ cs → IsName name := fun name hn =>
      hc name (List.mem_cons_of_mem c hn)
    cases c with
    | name text =>
      refine ih (List.forall_mem_append.mpr ⟨h, List.forall_mem_singleton.mpr ?_⟩) rest
      exact hc text List.mem_cons_self
    | parent => exact ih (fun name hn => h name (List.mem_of_mem_dropLast hn)) rest
    | root => exact ih h rest
    | current => exact ih h rest

/-! ## Paths made of names -/

theorem toList_ofNames (absolute : Bool) (names : List String) :
    (ofNames absolute names).toList =
      (if absolute then ['/'] else []) ++ ['/'].intercalate (names.map String.toList) := by
  rw [ofNames, String.toList_append, String.toList_intercalate]
  cases absolute <;> rfl

theorem filterMap_component? (h : ∀ name ∈ names, IsName name) :
    (names.map String.toList).filterMap component? = names.map .name := by
  rw [List.filterMap_map, ← List.filterMap_eq_map]
  exact List.filterMap_congr fun name hn => component?_of_isName (h name hn)

/-- A path that is written of names has these names as its components. -/
theorem components_ofNames (absolute : Bool) (h : ∀ name ∈ names, IsName name) :
    components (ofNames absolute names) =
      (if absolute then [.root] else []) ++ names.map .name := by
  by_cases nothing : names = []
  · subst nothing
    cases absolute <;> decide
  have pieces : names.map String.toList ≠ [] := fun he => nothing (List.map_eq_nil_iff.mp he)
  have apart := FileTree.names_apart fun name hn => (h name hn).piece
  have cut := Text.splitOn_intercalate pieces fun piece hp => (apart piece hp).2
  cases absolute with
  | true =>
    have text : (ofNames true names).toList =
        '/' :: ['/'].intercalate (names.map String.toList) := toList_ofNames true names
    have top : isAbsolute (ofNames true names) = true := by
      rw [isAbsolute, text]
      rfl
    rw [components_eq, start, steps, top, text, Text.splitOn, if_pos rfl, if_pos rfl, cut,
      List.filterMap_cons, ← filterMap_component? h]
    rfl
  | false =>
    have text : (ofNames false names).toList =
        ['/'].intercalate (names.map String.toList) := toList_ofNames false names
    obtain ⟨first, others, rfl⟩ := List.exists_cons_of_ne_nil nothing
    obtain ⟨c, cs, written⟩ :=
      List.exists_cons_of_ne_nil (apart _ (List.mem_map_of_mem List.mem_cons_self)).1
    have relative : isAbsolute (ofNames false (first :: others)) = false := by
      rw [isAbsolute, text, decide_eq_false_iff_not]
      intro begins
      have head : (['/'].intercalate ((first :: others).map String.toList)).head? = some c := by
        rw [List.map_cons, written]
        cases others.map String.toList with
        | nil => rfl
        | cons next rest => rw [List.intercalate_cons_cons]; rfl
      cases head.symm.trans begins
      have slash : '/' ∈ first.toList := by
        rw [written]
        exact List.mem_cons_self
      exact (h first List.mem_cons_self).piece.2 slash
    have solid : ¬ ((first :: others).map String.toList).head? = some ['.'] := fun dot =>
      (h first List.mem_cons_self).plain.1 (String.toList_inj.mp (Option.some.inj dot))
    rw [components_eq, start, steps, relative, text, cut, if_neg Bool.false_ne_true,
      if_neg solid, filterMap_component? h]
    rfl

theorem isAbsolute_ofNames {absolute : Bool} (h : ∀ name ∈ names, IsName name) :
    isAbsolute (ofNames absolute names) = absolute := by
  have top : .root ∈ components (ofNames absolute names) ↔
      isAbsolute (ofNames absolute names) = true := root_mem_components_iff
  rw [components_ofNames absolute h] at top
  cases absolute <;> simpa using top.symm

/-! ## Joins -/

theorem isAbsolute_join (base : String) (relative : isAbsolute path = false) :
    isAbsolute (join base path) = isAbsolute base := by
  rw [join, relative, if_neg Bool.false_ne_true]
  by_cases nothing : base = ""
  · have top : isAbsolute "" = false := rfl
    rw [nothing, top]
    simpa using relative
  · obtain ⟨c, cs, written⟩ :=
      List.exists_cons_of_ne_nil fun he => nothing (String.toList_inj.mp he)
    split <;> simp [isAbsolute, written]

/-- The steps of a relative path follow those of the path that it is joined to. -/
theorem steps_join (base : String) (relative : isAbsolute path = false) :
    steps (join base path) = steps base ++ steps path := by
  have nothing : steps "" = [] := rfl
  rw [join, relative, if_neg Bool.false_ne_true]
  split
  · rename_i ended
    rcases Bool.or_eq_true_iff.mp ended with empty | slash
    · rw [String.isEmpty_iff.mp empty, nothing, String.empty_append]
      rfl
    · obtain ⟨before, written⟩ := List.getLast?_eq_some_iff.mp (of_decide_eq_true slash)
      have cut : Text.splitOn '/' base.toList = Text.splitOn '/' before ++ [[]] := by
        rw [written, Text.splitOn_append]
        rfl
      have skipped : [([] : List Char)].filterMap component? = [] := rfl
      rw [steps, steps, steps, cut, String.toList_append, written, List.append_assoc,
        List.singleton_append, Text.splitOn_append, List.filterMap_append, List.filterMap_append,
        skipped, List.append_nil]
  · have split : (base ++ "/" ++ path).toList = base.toList ++ '/' :: path.toList := by simp
    rw [steps, steps, steps, split, Text.splitOn_append, List.filterMap_append]

theorem normalizeJoin_of_relative (base : String) (relative : isAbsolute path = false) :
    normalizeJoin base path = ofNames (isAbsolute base)
      (resolveNames (resolveNames [] (components base)) (components path)) := by
  rw [normalizeJoin, isAbsolute_join base relative, resolveNames_components,
    resolveNames_components, resolveNames_components, steps_join base relative,
    resolveNames_append]

/-- A normalized join is made of names. -/
theorem normalizeJoin_names (base path : String) :
    ∃ names, (∀ name ∈ names, IsName name) ∧
      normalizeJoin base path = ofNames (isAbsolute (join base path)) names :=
  ⟨_, isName_of_mem_resolveNames (List.forall_mem_nil _) fun _ => isName_of_mem_components, rfl⟩

theorem isAbsolute_normalizeJoin {base : String} (h : isAbsolute base = true) (path : String) :
    isAbsolute (normalizeJoin base path) = true := by
  obtain ⟨names, hn, joined⟩ := normalizeJoin_names base path
  rw [joined, isAbsolute_ofNames hn]
  cases relative : isAbsolute path with
  | true => rw [join, relative, if_pos rfl, relative]
  | false => rw [isAbsolute_join base relative, h]

end CommandContract.Path
