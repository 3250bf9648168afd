import Mathlib.Data.List.Induction
import CommandContract.FileTree
import CommandContract.Proofs.Text.Pieces

set_option autoImplicit false

/-!
# Canonical locations

Following all links of a path leads to a location that can be walked to from the top without
following any. So the path that such a location is written as leads back to it:
`FileTree.Reached.eq_of_canonical`.
-/
namespace CommandContract

namespace FileTree

variable {files : FileTree} {location at_ base : Location} {pieces : List String} {path : String}
  {steps budget : Nat}

/-- A piece of a path as it stands between slashes. -/
def IsPiece (piece : String) : Prop := piece ≠ "" ∧ '/' ∉ piece.toList

theorem isPiece_of_mem_piecesOf {piece : String} (h : piece ∈ piecesOf path) : IsPiece piece := by
  have between : ∀ piece ∈ ((Text.splitOn '/' path.toList).map String.ofList).filter (· ≠ ""),
      IsPiece piece := by
    intro piece hp
    obtain ⟨hm, hne⟩ := List.mem_filter.mp hp
    obtain ⟨cs, hcs, rfl⟩ := List.mem_map.mp hm
    refine ⟨by simpa using hne, ?_⟩
    rw [String.toList_ofList]
    exact Text.not_mem_of_mem_splitOn hcs
  unfold piecesOf at h
  dsimp only at h
  split at h
  · rcases List.mem_append.mp h with h | h
    · exact between piece h
    · rw [List.mem_singleton] at h
      subst h
      exact ⟨by decide, by decide⟩
  · exact between piece h

/-! ## Walks from the beginning of a path -/

/-- A path that a system takes. -/
def IsPlain (path : String) : Prop :=
  '\x00' ∉ path.toList ∧ path.utf8ByteSize ≤ maxPath ∧ path.isEmpty = false

instance (path : String) : Decidable (IsPlain path) := inferInstanceAs (Decidable (_ ∧ _ ∧ _))

def walkAll (files : FileTree) (path : String) : Except FileError Location :=
  files.walk (files.walkSteps path) maxLinks
    (if Path.isAbsolute path then [] else files.workingDirectory) (piecesOf path)

theorem walkAll_of_canonical (h : files.canonical path = .ok location) :
    files.walkAll path = .ok location := by
  unfold canonical at h
  split at h
  · cases h
  · split at h
    · cases h
    · exact h

theorem canonical_of_locate (h : files.locate path = .ok location) :
    files.canonical path = .ok location := by
  unfold locate at h
  split at h
  · cases h
  · split at h
    · cases h
    · exact h

theorem canonical_eq_walkAll (plain : IsPlain path) :
    files.canonical path = files.walkAll path := by
  obtain ⟨ends, _, named⟩ := plain
  rw [canonical, String.contains_char_eq, if_neg (by simpa using ends), named]
  rfl

theorem locate_eq_walkAll (plain : IsPlain path) : files.locate path = files.walkAll path := by
  have same : files.canonical path = files.walkAll path := canonical_eq_walkAll plain
  obtain ⟨ends, short, _⟩ := plain
  rw [locate, String.contains_char_eq, if_neg (by simpa using ends), if_neg (by omega), same]

/-! ## Locations without links -/

/-- Every name on the way stands for itself and leads from a directory to an entry that is no
link. -/
inductive Reached (files : FileTree) : Location → Prop
  | top : Reached files []
  | step {location : Location} {name : String} {entry : FileEntry} (h : Reached files location)
      (inside : files.entry? location = some .directory) (piece : IsPiece name)
      (plain : name ≠ "." ∧ name ≠ "..") (found : files.entry? (location ++ [name]) = some entry)
      (solid : ∀ target, entry ≠ .link target) : Reached files (location ++ [name])

theorem reached_append_singleton {name : String} (h : Reached files (location ++ [name])) :
    Reached files location ∧ files.entry? location = some .directory ∧ IsPiece name ∧
      (name ≠ "." ∧ name ≠ "..") ∧
      ∃ entry, files.entry? (location ++ [name]) = some entry ∧ ∀ target, entry ≠ .link target := by
  generalize he : location ++ [name] = whole at h
  cases h with
  | top => simp at he
  | step h inside piece plain found solid =>
    obtain ⟨rfl, hn⟩ := List.append_inj' he rfl
    cases hn
    exact ⟨h, inside, piece, plain, _, found, solid⟩

theorem Reached.of_append {more : Location} (h : Reached files (location ++ more)) :
    Reached files location := by
  induction more using List.reverseRec with
  | nil => rwa [List.append_nil] at h
  | append_singleton more name ih =>
    rw [← List.append_assoc] at h
    exact ih (reached_append_singleton h).1

theorem Reached.dropLast (h : Reached files location) : Reached files location.dropLast := by
  cases h with
  | top => exact .top
  | step h =>
    rw [List.dropLast_concat]
    exact h

theorem Reached.isPiece (h : Reached files location) : ∀ name ∈ location, IsPiece name := by
  induction h with
  | top => exact nofun
  | step _ _ piece _ _ _ ih =>
    rw [List.forall_mem_append, List.forall_mem_singleton]
    exact ⟨ih, piece⟩

/-- A walk ends where one can get without links. -/
theorem reached_of_walk (h : files.walk steps budget at_ pieces = .ok location)
    (start : Reached files at_) (hp : ∀ piece ∈ pieces, IsPiece piece) :
    Reached files location := by
  induction steps generalizing budget at_ pieces with
  | zero =>
    cases pieces with
    | nil =>
      cases h
      exact start
    | cons piece pieces => simp [walk] at h
  | succ steps ih =>
    cases pieces with
    | nil =>
      cases h
      exact start
    | cons piece pieces =>
      rw [List.forall_mem_cons] at hp
      rw [walk] at h
      split at h
      · rename_i inside
        split at h
        · exact ih h start hp.2
        · rename_i current
          split at h
          · exact ih h start.dropLast hp.2
          · rename_i parent
            split at h
            · cases h
            · split at h
              · cases h
              · rename_i target found
                split at h
                · cases h
                · dsimp only at h
                  split at h
                  · cases h
                  · refine ih h ?_ ?_
                    · split
                      · exact .top
                      · exact start
                    · rw [List.forall_mem_append]
                      exact ⟨fun _ => isPiece_of_mem_piecesOf, hp.2⟩
              · rename_i entry solid found
                refine ih h (.step start inside hp.1 ⟨current, parent⟩ found ?_) hp.2
                rintro target rfl
                exact solid target rfl
      · cases h

theorem reached_of_canonical (h : files.canonical path = .ok location)
    (start : Path.isAbsolute path = true ∨ Reached files files.workingDirectory) :
    Reached files location := by
  refine reached_of_walk (walkAll_of_canonical h) ?_ fun _ => isPiece_of_mem_piecesOf
  split
  · exact .top
  · rename_i relative
    exact start.resolve_left relative

/-! ## The way back -/

/-- Where no link stands in the way, a walk follows the names. -/
theorem walk_through {names : Location} (reached : Reached files (at_ ++ names))
    (h : files.walk steps budget at_ (names ++ pieces) = .ok location) :
    ∃ left, files.walk left budget (at_ ++ names) pieces = .ok location := by
  induction names generalizing steps at_ with
  | nil => exact ⟨steps, by simpa using h⟩
  | cons name names ih =>
    have split : at_ ++ name :: names = at_ ++ [name] ++ names := by simp
    rw [split] at reached ⊢
    obtain ⟨_, inside, _, ⟨current, parent⟩, entry, found, solid⟩ :=
      reached_append_singleton reached.of_append
    rw [List.cons_append] at h
    cases steps with
    | zero => simp [walk] at h
    | succ steps =>
      rw [walk, inside] at h
      simp only [current, parent, if_false, found] at h
      split at h
      · cases h
      · exact ih reached h

theorem eq_of_walk (h : files.walk steps budget at_ pieces = .ok base)
    (reached : Reached files (at_ ++ pieces)) : base = at_ ++ pieces := by
  obtain ⟨left, last⟩ : ∃ left, files.walk left budget (at_ ++ pieces) [] = .ok base :=
    walk_through reached (by rwa [List.append_nil])
  cases left <;> cases last <;> rfl

theorem toList_text (location : Location) :
    location.text.toList = '/' :: ['/'].intercalate (location.map String.toList) := by
  simp [Location.text, Path.ofNames, String.toList_intercalate]

/-- The texts of names, as they are joined and cut apart. -/
theorem names_apart (h : ∀ name ∈ location, IsPiece name) :
    ∀ piece ∈ location.map String.toList, piece ≠ [] ∧ '/' ∉ piece := by
  refine List.forall_mem_map.mpr fun name hn => ⟨fun he => (h name hn).1 ?_, (h name hn).2⟩
  rw [← String.toList_inj, he]
  rfl

theorem getLast?_text (h : ∀ name ∈ location, IsPiece name) (hne : location ≠ []) :
    location.text.toList.getLast? ≠ some '/' := by
  have names : location.map String.toList ≠ [] := fun he => hne (List.map_eq_nil_iff.mp he)
  obtain ⟨c, hc, other⟩ := Text.getLast?_intercalate names (names_apart h)
  rw [toList_text, List.getLast?_cons, hc]
  exact fun he => other (Option.some.inj he)

theorem piecesOf_text (h : ∀ name ∈ location, IsPiece name) (hne : location ≠ []) :
    piecesOf location.text = location := by
  have names : location.map String.toList ≠ [] := fun he => hne (List.map_eq_nil_iff.mp he)
  have cut : Text.splitOn '/' location.text.toList = [] :: location.map String.toList := by
    rw [toList_text, Text.splitOn, if_pos rfl,
      Text.splitOn_intercalate names fun piece hp => (names_apart h piece hp).2]
  have kept :
      (([] :: location.map String.toList).map String.ofList).filter (· ≠ "") = location := by
    have all : ∀ name ∈ location, decide (name ≠ "") = true := fun name hn =>
      decide_eq_true (h name hn).1
    simpa [Function.comp_def] using List.filter_eq_self.mpr all
  unfold piecesOf
  dsimp only
  rw [cut, kept, if_neg (getLast?_text h hne)]

theorem piecesOf_text_nil : piecesOf (Location.text []) = ["."] := by
  decide

theorem isAbsolute_text (location : Location) : Path.isAbsolute location.text = true := by
  simp [Path.isAbsolute, toList_text]

theorem isAbsolute_join_text (location : Location) (path : String) :
    Path.isAbsolute (Path.join location.text path) = true := by
  unfold Path.join
  split
  · assumption
  · split <;> simp [Path.isAbsolute, toList_text]

/-- The path of a location that is reached without links leads back to it. -/
theorem Reached.eq_of_canonical (reached : Reached files location)
    (h : files.canonical location.text = .ok base) : base = location := by
  have walked := walkAll_of_canonical h
  rw [walkAll, isAbsolute_text] at walked
  cases location with
  | nil =>
    have steps : ∃ n, files.walkSteps (Location.text []) = n + 1 :=
      ⟨files.walkSteps (Location.text []) - 1, by rw [walkSteps]; omega⟩
    obtain ⟨n, hn⟩ := steps
    rw [piecesOf_text_nil, hn] at walked
    simpa [walk, entry?] using walked
  | cons name names =>
    rw [piecesOf_text reached.isPiece (List.cons_ne_nil _ _)] at walked
    exact eq_of_walk walked reached

/-! ## One name behind a location -/

/-- What is written behind the path of a location is the path of what is below it. -/
theorem join_text {name : String} (h : ∀ name ∈ location, IsPiece name) (piece : IsPiece name) :
    Path.join location.text name = Location.text (location ++ [name]) := by
  have relative : Path.isAbsolute name = false := by
    rw [Path.isAbsolute, decide_eq_false_iff_not]
    intro he
    exact piece.2 (List.mem_of_mem_head? (by rw [he]; rfl))
  have written : location.text.isEmpty = false := by
    rw [← Bool.not_eq_true, String.isEmpty_iff, ← String.toList_inj, toList_text]
    exact List.cons_ne_nil _ _
  rw [Path.join, relative, written, Bool.false_or, if_neg Bool.false_ne_true, ← String.toList_inj]
  by_cases top : location = []
  · subst top
    simp [toList_text]
  · have names : location.map String.toList ≠ [] := fun he => top (List.map_eq_nil_iff.mp he)
    have last := getLast?_text h top
    rw [if_neg (by simpa using last), toList_text, List.map_append, List.map_singleton,
      Text.intercalate_concat names, String.toList_append, String.toList_append, toList_text]
    simp

/-- What a name in a directory stands for, if it is no link, is what has that name. -/
theorem eq_of_locate {name : String} (reached : Reached files at_) (piece : IsPiece name)
    (plain : name ≠ "." ∧ name ≠ "..")
    (solid : ∀ target, files.entry? (at_ ++ [name]) ≠ some (.link target))
    (h : files.locate (Path.join at_.text name) = .ok location) : location = at_ ++ [name] := by
  have walked := walkAll_of_canonical (canonical_of_locate h)
  have pieces : ∀ n ∈ at_ ++ [name], IsPiece n :=
    List.forall_mem_append.mpr ⟨reached.isPiece, List.forall_mem_singleton.mpr piece⟩
  rw [walkAll, join_text reached.isPiece piece, isAbsolute_text,
    piecesOf_text pieces (List.concat_ne_nil _ _)] at walked
  obtain ⟨left, last⟩ : ∃ left, files.walk left maxLinks at_ [name] = .ok location :=
    walk_through (List.nil_append at_ ▸ reached) walked
  cases left with
  | zero => simp [walk] at last
  | succ left =>
    rw [walk] at last
    split at last
    · simp only [plain.1, plain.2, if_false] at last
      split at last
      · cases last
      · split at last
        · cases last
        · rename_i target found
          exact absurd found (solid target)
        · cases left <;> cases last <;> rfl
    · cases last

theorem length_le_height {entry : FileEntry} (h : files.entry? location = some entry) :
    location.length ≤ files.height := by
  unfold entry? at h
  split at h
  · rename_i top
    rw [List.isEmpty_iff.mp top]
    exact Nat.zero_le _
  · obtain ⟨e, he, _⟩ := Option.map_eq_some_iff.mp h
    have found : e.1 = location := by simpa using List.find?_some he
    have bound : ∀ (lengths : List Nat) (start : Nat), start ≤ lengths.foldl max start ∧
        ∀ n ∈ lengths, n ≤ lengths.foldl max start := by
      intro lengths
      induction lengths with
      | nil => exact fun start => ⟨Nat.le_refl start, nofun⟩
      | cons m lengths ih =>
        intro start
        obtain ⟨above, all⟩ := ih (max start m)
        rw [List.foldl_cons, List.forall_mem_cons]
        exact ⟨Nat.le_trans (Nat.le_max_left _ _) above,
          Nat.le_trans (Nat.le_max_right _ _) above, all⟩
    have listed := List.mem_map_of_mem (f := fun e => e.1.length) (List.mem_of_find?_eq_some he)
    rw [← found]
    exact (bound _ 0).2 _ listed

end FileTree

end CommandContract
