import Mathlib.Data.List.Forall2
import CommandContract.Proofs.Except
import CommandContract.Trace

set_option autoImplicit false

/-!
# Trees that differ in what files hold

Two trees with the same entries, whose files may hold different bytes. Paths lead to the same
locations in both, whatever the bytes are, and writing to both keeps them alike.
-/
namespace CommandContract

inductive FileEntry.Alike (same : List Nat → List Nat → Prop) : FileEntry → FileEntry → Prop
  | refl (entry : FileEntry) : Alike same entry entry
  | file {content other : List Nat} (executable : Bool) (h : same content other) :
    Alike same (.file content executable) (.file other executable)

namespace FileTree

def Placed (same : List Nat → List Nat → Prop) (a b : Location × FileEntry) : Prop :=
  a.1 = b.1 ∧ FileEntry.Alike same a.2 b.2

structure Alike (same : List Nat → List Nat → Prop) (t u : FileTree) : Prop where
  entries : List.Forall₂ (Placed same) t.entries u.entries
  workingDirectory : t.workingDirectory = u.workingDirectory

theorem entry?_put_of_ne {location other : Location} (h : other ≠ location) (t : FileTree)
    (entry : FileEntry) : FileTree.entry? (t.put location entry) other = t.entry? other := by
  have mapped : ∀ entries : List (Location × FileEntry),
      ((entries.map fun e => if e.1 = location then (location, entry) else e).find?
        fun e => e.1 = other) = entries.find? fun e => e.1 = other := by
    intro entries
    induction entries with
    | nil => rfl
    | cons e entries ih =>
      rw [List.map_cons]
      by_cases here : e.1 = location
      · have apart : ¬ e.1 = other := fun he => h (he.symm.trans here)
        simp only [here, if_true]
        rw [List.find?_cons_of_neg (by simpa using Ne.symm h),
          List.find?_cons_of_neg (by simpa using apart), ih]
      · rw [if_neg here, List.find?_cons, List.find?_cons, ih]
  unfold FileTree.entry? FileTree.put
  split
  · rfl
  split
  · rw [mapped]
  · rw [List.find?_append, List.find?_cons_of_neg (by simpa using Ne.symm h), List.find?_nil,
      Option.or_none]

namespace Alike

variable {same : List Nat → List Nat → Prop} {t u : FileTree} {location at_ : Location}
  {path : String}

theorem refl (same : List Nat → List Nat → Prop) (t : FileTree) : Alike same t t where
  entries := List.forall₂_same.mpr fun a _ => ⟨rfl, .refl a.2⟩
  workingDirectory := rfl

/-- Only what a file holds can be another thing in the other tree. -/
theorem entry? (h : Alike same t u) (location : Location) :
    t.entry? location = u.entry? location ∨ ∃ content other executable,
      t.entry? location = some (.file content executable) ∧
      u.entry? location = some (.file other executable) ∧ same content other := by
  obtain ⟨entries, _⟩ := h
  unfold FileTree.entry?
  split
  · exact .inl rfl
  generalize t.entries = xs at entries
  generalize u.entries = ys at entries
  induction entries with
  | nil => exact .inl rfl
  | @cons a b xs ys first _ ih =>
    obtain ⟨placed, entry⟩ := first
    by_cases here : a.1 = location
    · have there : b.1 = location := placed ▸ here
      rw [List.find?_cons_of_pos (by simpa using here), List.find?_cons_of_pos (by simpa using there),
        Option.map_some, Option.map_some]
      generalize a.2 = x at entry
      generalize b.2 = y at entry
      cases entry with
      | refl => exact .inl rfl
      | file executable held => exact .inr ⟨_, _, _, rfl, rfl, held⟩
    · have elsewhere : ¬ b.1 = location := placed ▸ here
      rw [List.find?_cons_of_neg (by simpa using here),
        List.find?_cons_of_neg (by simpa using elsewhere)]
      exact ih

theorem isDirectory_iff (h : Alike same t u) (location : Location) :
    t.entry? location = some .directory ↔ u.entry? location = some .directory := by
  rcases h.entry? location with he | ⟨c, d, x, ht, hu, _⟩
  · rw [he]
  · rw [ht, hu]
    simp

theorem walk (h : Alike same t u) (steps links : Nat) (at_ : Location) (pieces : List String) :
    t.walk steps links at_ pieces = u.walk steps links at_ pieces := by
  induction steps generalizing links at_ pieces with
  | zero => cases pieces <;> rfl
  | succ steps ih =>
    cases pieces with
    | nil => rfl
    | cons piece pieces =>
      rw [FileTree.walk, FileTree.walk]
      -- a file ends both walks: what it holds is never looked at
      rcases h.entry? at_ with here | ⟨c, d, x, ht, hu, _⟩
      · rcases h.entry? (at_ ++ [piece]) with next | ⟨c, d, x, ht, hu, _⟩
        · simp only [here, next, ih]
        · simp only [here, ht, hu, ih]
      · simp only [ht, hu]

/-- What a link adds to the steps of a walk. -/
def linkLength : FileEntry → Nat
  | .link target => target.length
  | _ => 0

theorem walkSteps_eq (t : FileTree) (path : String) : t.walkSteps path =
    path.length + 2 + maxLinks * ((t.entries.map fun e => linkLength e.2).foldl max 0 + 2) := by
  rw [FileTree.walkSteps]
  refine congrArg (fun f => path.length + 2 + maxLinks * ((t.entries.map f).foldl max 0 + 2)) ?_
  funext e
  obtain ⟨_, entry⟩ := e
  cases entry <;> rfl

theorem walkSteps (h : Alike same t u) (path : String) : t.walkSteps path = u.walkSteps path := by
  have lengths : (t.entries.map fun e => linkLength e.2) =
      u.entries.map fun e => linkLength e.2 := by
    obtain ⟨entries, _⟩ := h
    generalize t.entries = xs at entries
    generalize u.entries = ys at entries
    induction entries with
    | nil => rfl
    | @cons a b xs ys first _ ih =>
      obtain ⟨_, entry⟩ := first
      have one : linkLength a.2 = linkLength b.2 := by
        generalize a.2 = x at entry
        generalize b.2 = y at entry
        cases entry <;> rfl
      rw [List.map_cons, List.map_cons, ih, one]
  rw [walkSteps_eq, walkSteps_eq, lengths]

theorem canonical (h : Alike same t u) (path : String) : t.canonical path = u.canonical path := by
  rw [FileTree.canonical, FileTree.canonical, h.workingDirectory, h.walkSteps, h.walk]

theorem locate (h : Alike same t u) (path : String) : t.locate path = u.locate path := by
  rw [FileTree.locate, FileTree.locate, h.canonical]

theorem target? (h : Alike same t u) (path : String) :
    t.target? path = u.target? path ∨ ∃ content other executable,
      t.target? path = some (.file content executable) ∧
      u.target? path = some (.file other executable) ∧ same content other := by
  rw [FileTree.target?, FileTree.target?, h.locate]
  cases u.locate path with
  | error => exact .inl rfl
  | ok location => exact h.entry? location

theorem pathExists (h : Alike same t u) (path : String) :
    t.pathExists path = u.pathExists path := by
  rw [FileTree.pathExists, FileTree.pathExists]
  rcases h.target? path with he | ⟨c, d, x, ht, hu, _⟩
  · rw [he]
  · rw [ht, hu, Option.isSome_some, Option.isSome_some]

theorem size? (h : Alike same t u) (sizes : ∀ c d, same c d → c.length = d.length)
    (path : String) : t.size? path = u.size? path := by
  rw [FileTree.size?, FileTree.size?]
  rcases h.target? path with he | ⟨c, d, x, ht, hu, held⟩
  · rw [he]
  · simp only [ht, hu, sizes c d held]

/-! ## Writing -/

theorem any_location (h : Alike same t u) (location : Location) :
    (t.entries.any fun e => e.1 = location) = u.entries.any fun e => e.1 = location := by
  obtain ⟨entries, _⟩ := h
  generalize t.entries = xs at entries
  generalize u.entries = ys at entries
  induction entries with
  | nil => rfl
  | cons first _ ih =>
    obtain ⟨placed, _⟩ := first
    rw [List.any_cons, List.any_cons, ih, placed]

theorem put (h : Alike same t u) (location : Location) {entry other : FileEntry}
    (alike : FileEntry.Alike same entry other) :
    Alike same (t.put location entry) (u.put location other) := by
  unfold FileTree.put
  rw [h.any_location]
  split
  · refine ⟨?_, h.workingDirectory⟩
    rw [List.forall₂_map_left_iff, List.forall₂_map_right_iff]
    refine h.entries.imp fun a b first => ?_
    obtain ⟨placed, entries⟩ := first
    rw [placed]
    split
    · exact ⟨rfl, alike⟩
    · exact ⟨placed, entries⟩
  · refine ⟨?_, h.workingDirectory⟩
    exact List.rel_append h.entries (.cons ⟨rfl, alike⟩ .nil)

/-- Other bytes in a file make no difference to anything but what it holds. -/
theorem rewrite {executable : Bool} (present : ∃ e ∈ t.entries, e.1 = location)
    (held : ∀ e ∈ t.entries, e.1 = location → ∃ content, e.2 = .file content executable)
    (content : List Nat) :
    Alike (fun _ _ => True) t (t.put location (.file content executable)) := by
  have listed : (t.entries.any fun e => e.1 = location) = true := by
    simpa using present
  unfold FileTree.put
  rw [if_pos listed]
  refine ⟨?_, rfl⟩
  rw [List.forall₂_map_right_iff, List.forall₂_same]
  intro e he
  split
  · rename_i here
    obtain ⟨before, hb⟩ := held e he here
    refine ⟨here, ?_⟩
    rw [hb]
    exact .file executable trivial
  · exact ⟨rfl, .refl _⟩

theorem makeFrom (h : Alike same t u) (at_ : Location) (pieces : List String) :
    Except.Agree (Alike same) (t.makeFrom at_ pieces) (u.makeFrom at_ pieces) := by
  induction pieces generalizing t u at_ with
  | nil => exact .ok h
  | cons piece pieces ih =>
    rw [FileTree.makeFrom, FileTree.makeFrom]
    split
    · exact ih h at_
    split
    · exact ih h at_.dropLast
    split
    · exact .error _
    rcases h.entry? (at_ ++ [piece]) with next | ⟨c, d, x, ht, hu, _⟩
    · simp only [next, h.canonical]
      split
      · exact ih (h.put _ (.refl _)) _
      · exact ih h _
      · split
        · rename_i location _
          rcases h.entry? location with led | ⟨c, d, x, ht, hu, _⟩
          · simp only [led]
            split
            · exact ih h _
            · exact .error _
          · simp only [ht, hu]
            exact .error _
        · exact .error _
      · split <;> exact .error _
    · simp only [ht, hu]
      split <;> exact .error _

theorem makeDirectories (h : Alike same t u) (path : String) :
    Except.Agree (Alike same) (t.makeDirectories path) (u.makeDirectories path) := by
  rw [FileTree.makeDirectories, FileTree.makeDirectories, h.workingDirectory]
  split
  · exact .ok h
  split
  · exact .error _
  split
  · exact .error _
  exact h.makeFrom _ _

theorem writeLocation (h : Alike same t u) (fuel : Nat) (path : String) :
    t.writeLocation fuel path = u.writeLocation fuel path := by
  induction fuel generalizing path with
  | zero => rfl
  | succ fuel ih =>
    rw [FileTree.writeLocation, FileTree.writeLocation, h.locate, h.canonical]
    simp only [h.isDirectory_iff, ih]
    split
    · rfl
    · cases u.canonical (Path.join ((parentPath? path).getD "") ".") with
      | error => rfl
      | ok parent =>
        simp only [bind, Except.bind]
        split
        · rfl
        · rename_i name _
          rcases h.entry? (parent ++ [name]) with last | ⟨c, d, x, ht, hu, _⟩
          · rw [last]
          · simp only [ht, hu]
    · rfl

theorem writeAt (h : Alike same t u) (location : Location) {change other : List Nat → List Nat}
    (changes : ∀ c d, c = d ∨ same c d → same (change c) (other d)) :
    Except.Agree (Alike same) (t.writeAt location change) (u.writeAt location other) := by
  rw [FileTree.writeAt, FileTree.writeAt]
  rcases h.entry? location with here | ⟨c, d, x, ht, hu, held⟩
  · rw [here]
    split
    · exact .ok (h.put _ (.file _ (changes _ _ (.inl rfl))))
    · exact .ok h
    · exact .ok h
    · exact .error _
    · exact .ok (h.put _ (.file _ (changes _ _ (.inl rfl))))
  · simp only [ht, hu]
    exact .ok (h.put _ (.file _ (changes c d (.inr held))))

theorem append (h : Alike same t u) (path : String) {text other : String}
    (grows : ∀ c d, c = d ∨ same c d → same (c ++ Text.utf8 text) (d ++ Text.utf8 other)) :
    Except.Agree (Alike same) (t.append path text) (u.append path other) := by
  rw [FileTree.append, FileTree.append, h.writeLocation]
  cases u.writeLocation maxLinks path with
  | error cause => exact .error _
  | ok location => exact h.writeAt location grows

/-- Lines of the same length keep the trace files alike. -/
theorem traced (h : Alike same t u) (path : String) {line other : String}
    (grows : ∀ c d, c = d ∨ same c d →
      same (c ++ Text.utf8 (line ++ "\n")) (d ++ Text.utf8 (other ++ "\n"))) :
    Alike same (Trace.append t path line) (Trace.append u path other) := by
  have prepared : Except.Agree (Alike same) (Trace.prepare t path) (Trace.prepare u path) := by
    unfold Trace.prepare
    split
    · exact h.makeDirectories _
    · exact .ok h
  rw [Trace.append, Trace.append]
  generalize Trace.prepare t path = x at prepared
  generalize Trace.prepare u path = y at prepared
  cases prepared with
  | error => exact h
  | @ok made ready alike =>
    have appended := alike.append path grows
    dsimp only
    generalize made.append path (line ++ "\n") = v at appended
    generalize ready.append path (other ++ "\n") = w at appended
    cases appended with
    | error => exact alike
    | ok done => exact done

end Alike

end FileTree

end CommandContract
