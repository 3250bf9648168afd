import CommandContract.Proofs.Text.Class
import CommandContract.Proofs.Text.Pieces
import CommandContract.Proofs.Text.Trim
import CommandContract.Proofs.Validation.Coercion
import Mathlib.Data.List.Perm.Basic

set_option autoImplicit false

/-!
# Declared unions

A declared type is a set of types: how its members are spelled, in which order they stand and how
often, and what is empty between two bars makes no difference. So two texts with the same types treat
every value alike, and the first type in the fixed order that accepts the value decides.
-/
namespace CommandContract

namespace ParameterType

variable {text : String} {t : ParameterType} {declared other : String}
  {members : List ParameterType} {v : Value}

/-! ## Spellings -/

/-- The words for a type. -/
def words : ParameterType → List String
  | integer => ["integer", "int"]
  | number => ["number", "float"]
  | boolean => ["boolean", "bool"]
  | t => [t.name]

theorem ofName?_eq_some_iff :
    ofName? text = some t ↔ Text.asciiLower text.trimBlank ∈ t.words := by
  unfold ofName?
  constructor
  · intro h
    split at h <;> cases h <;> rename_i same <;> rw [same] <;> decide
  · intro h
    cases t with
    | integer | number | boolean =>
      rcases List.mem_pair.mp h with h | h
      · rw [h]
        rfl
      · rw [h]
        rfl
    | _ =>
      rw [List.mem_singleton.mp h]
      rfl

theorem bare_of_mem_words {word : String} (h : word ∈ t.words) :
    word.toList ≠ [] ∧ ∀ c ∈ word.toList, Text.isBlank c = false := by
  have bare : (t.words.all fun word =>
      !word.toList.isEmpty && word.toList.all fun c => !Text.isBlank c) = true := by
    cases t <;> decide +kernel
  simpa using List.all_eq_true.mp bare word h

/-- A word for a type, in letters of either case, with blanks around it. -/
inductive Spells (t : ParameterType) : List Char → Prop
  | mk {word : String} {letters piece : List Char} (listed : word ∈ t.words)
      (same : letters.map Char.toLower = word.toList) (padded : Text.Padded letters piece) :
      Spells t piece

theorem tight_of_letters {word : String} {letters : List Char} (listed : word ∈ t.words)
    (same : letters.map Char.toLower = word.toList) : Text.Tight letters := by
  obtain ⟨ne, bare⟩ := bare_of_mem_words listed
  refine Text.tight_of_all (fun none => ne ?_) fun c hc => ?_
  · rw [← same, none]
    rfl
  · have low := bare c.toLower (same ▸ List.mem_map_of_mem hc)
    rw [Bool.eq_false_iff] at low ⊢
    intro blank
    rw [Text.toLower_of_isBlank blank] at low
    exact low blank

theorem spells_iff {piece : List Char} :
    Spells t piece ↔ ofName? (String.ofList (Text.trim piece)) = some t := by
  have shown : Text.asciiLower (String.ofList (Text.trim piece)).trimBlank =
      String.ofList ((Text.trim piece).map Char.toLower) := by
    rw [Text.asciiLower, String.trimBlank, String.toList_ofList, String.toList_ofList,
      Text.trim_trim]
  rw [ofName?_eq_some_iff, shown]
  constructor
  · rintro ⟨listed, same, padded⟩
    rw [Text.trim_of_padded padded (tight_of_letters listed same), same, String.ofList_toList]
    exact listed
  · intro listed
    exact ⟨listed, (String.toList_ofList).symm, Text.padded_trim piece⟩

/-! ## Members -/

/-- One of the pieces between the bars spells the type. -/
def Named (declared : String) (t : ParameterType) : Prop :=
  ∃ piece ∈ Text.splitOn '|' declared.toList, Spells t piece

/-- Every piece between the bars is empty or spells a type. -/
def Known (declared : String) : Prop :=
  ∀ piece ∈ Text.splitOn '|' declared.toList,
    (∀ c ∈ piece, Text.isBlank c = true) ∨ ∃ t, Spells t piece

/-- The types of a declared type, which are strings if it names none. -/
def Declares (declared : String) (t : ParameterType) : Prop :=
  Named declared t ∨ (∀ u, ¬ Named declared u) ∧ t = string

instance (declared : String) (t : ParameterType) : Decidable (Named declared t) :=
  decidable_of_iff (∃ piece ∈ Text.splitOn '|' declared.toList,
    ofName? (String.ofList (Text.trim piece)) = some t) (by simp only [Named, spells_iff])

instance (declared : String) : Decidable (Known declared) :=
  decidable_of_iff (∀ piece ∈ Text.splitOn '|' declared.toList,
    piece.all Text.isBlank = true ∨ (ofName? (String.ofList (Text.trim piece))).isSome = true)
    (by simp only [Known, spells_iff, List.all_eq_true, Option.isSome_iff_exists])

theorem mem_all (t : ParameterType) : t ∈ all := by
  cases t <;> decide

/-- The list in which types are tried is the order of their declaration. -/
theorem rank_eq (t : ParameterType) : t.rank = t.ctorIdx := by
  cases t <;> rfl

theorem mapM_of_known {f : String → Except String ParameterType} {pieces : List String}
    (reads : ∀ piece t, ofName? piece = some t → f piece = .ok t)
    (known : ∀ piece ∈ pieces, ∃ t, ofName? piece = some t) :
    ∃ named, pieces.mapM f = .ok named ∧
      ∀ t, t ∈ named ↔ ∃ piece ∈ pieces, ofName? piece = some t := by
  induction pieces with
  | nil => exact ⟨[], rfl, by simp⟩
  | cons piece pieces ih =>
    rw [List.forall_mem_cons] at known
    obtain ⟨t, spelled⟩ := known.1
    obtain ⟨named, rest, mem⟩ := ih known.2
    refine ⟨t :: named, ?_, fun u => ?_⟩
    · rw [List.mapM_cons, reads piece t spelled, rest]
      rfl
    · rw [List.mem_cons, List.exists_mem_cons_iff, mem, spelled, Option.some.injEq, eq_comm]

/-- What is read: the pieces that are not blank, without the blanks around them. -/
def readPieces (declared : String) : List String :=
  ((Text.splitOn '|' declared.toList).map fun p => String.ofList (Text.trim p)).filter (· ≠ "")

theorem exists_piece_iff :
    (∃ piece ∈ readPieces declared, ofName? piece = some t) ↔ Named declared t := by
  simp only [readPieces, List.mem_filter, List.mem_map, Named, spells_iff]
  constructor
  · rintro ⟨_, ⟨⟨piece, mem, rfl⟩, _⟩, spelled⟩
    exact ⟨piece, mem, spelled⟩
  · rintro ⟨piece, mem, spelled⟩
    refine ⟨_, ⟨⟨piece, mem, rfl⟩, ?_⟩, spelled⟩
    rw [decide_eq_true_eq]
    intro empty
    rw [empty] at spelled
    cases spelled

theorem Known.read (known : Known declared) :
    ∀ piece ∈ readPieces declared, ∃ t, ofName? piece = some t := by
  intro text ht
  obtain ⟨ht, shown⟩ := List.mem_filter.mp ht
  obtain ⟨piece, mem, rfl⟩ := List.mem_map.mp ht
  rcases known piece mem with blank | ⟨t, spelled⟩
  · rw [Text.trim_of_blank blank] at shown
    cases shown
  · exact ⟨t, spells_iff.mp spelled⟩

theorem union_of_known (known : Known declared) :
    ∃ members, union declared = .ok members ∧ ∀ t, t ∈ members ↔ Declares declared t := by
  unfold union
  -- the reader of one piece is found by unification; to compare it with a copy would evaluate it
  refine (mapM_of_known ?reads known.read).elim fun named h =>
    ⟨_, Except.bind_eq_ok_iff.mpr ⟨named, h.1, rfl⟩, fun t => ?_⟩
  case reads =>
    intro piece t spelled
    simp only [spelled]
  have mem : ∀ u, u ∈ named ↔ Named declared u := fun u => (h.2 u).trans exists_piece_iff
  unfold Declares
  simp only [← mem]
  cases named with
  | nil => simp
  | cons first others =>
    have some_named : ¬ ∀ u, u ∉ first :: others := fun none => none first List.mem_cons_self
    rw [List.isEmpty_cons, if_neg Bool.false_ne_true, List.mem_filter, List.contains_iff_mem]
    simp only [mem_all, some_named, true_and, false_and, or_false]

/-- The order leaves no choice but of the types themselves. -/
theorem eq_of_same_types {others : List ParameterType} (ordered : members.Sublist all)
    (ordered' : others.Sublist all) (same : ∀ t, t ∈ members ↔ t ∈ others) : members = others := by
  have once : all.Nodup := by decide
  have perm := (List.perm_ext_iff_of_nodup (once.sublist ordered) (once.sublist ordered')).mpr same
  refine perm.eq_of_pairwise ?_ (pairwise_rank.sublist ordered) (pairwise_rank.sublist ordered')
  intro t u _ _ below above
  omega

end ParameterType

/-- The same error of a parameter whose type is declared in other words. -/
def ValidationError.declaredAs (declared : String) : ValidationError → ValidationError
  | typeMismatch parameter _ got => typeMismatch parameter declared got
  | e => e

namespace Validation

open ParameterType

variable {tree : FileTree} {name declared : String} {p : ParameterSpec} {t : ParameterType}
  {v : Value} {e : ValidationError}

/-- What one type of the union makes of a value, in the end. -/
def settled (tree : FileTree) (name : String) (p : ParameterSpec) (t : ParameterType) (v : Value) :
    Except ValidationError Value := do
  let w ← coerceTo tree name p t v
  checkChoice name p w
  if t.isNumeric then checkRange name p w
  .ok w

/-- The type is the first of the declared ones to accept the value. -/
structure Decides (declared : String) (v : Value) (t : ParameterType) : Prop where
  declares : Declares declared t
  accepts : t.accepts v = true
  first : ∀ u, Declares declared u → u.rank < t.rank → u.accepts v = false

section Members

variable {members : List ParameterType} (read : union p.declaredType = .ok members)

include read

theorem normalizeValue_of_some (chosen : members.find? (·.accepts v) = some t) :
    normalizeValue tree name p v = settled tree name p t v := by
  unfold normalizeValue
  simp only [read, chosen]
  rfl

theorem normalizeValue_of_none (none : members.find? (·.accepts v) = none) :
    normalizeValue tree name p v = .error (.typeMismatch name p.declaredType v.kind) := by
  unfold normalizeValue
  simp only [read, none]

/-- Once a type has accepted the value, no error speaks of the declared type. -/
theorem declaredAs_of_some (chosen : members.find? (·.accepts v) = some t)
    (h : normalizeValue tree name p v = .error e) (other : String) : e.declaredAs other = e := by
  cases normalizeValue_eq_error h with
  | mismatch again refused =>
    obtain rfl := Except.ok.inj (read.symm.trans again)
    have accepted : t.accepts v = true := by simpa using List.find?_some chosen
    rw [refused t (List.mem_of_find?_eq_some chosen)] at accepted
    cases accepted
  | _ => rfl

theorem normalizeValue_other {other : String} (same : union other = .ok members) :
    normalizeValue tree name { p with declaredType := other } v =
      (normalizeValue tree name p v).mapError (·.declaredAs other) := by
  have also : union { p with declaredType := other }.declaredType = .ok members := same
  cases chosen : members.find? (·.accepts v) with
  | none =>
    rw [normalizeValue_of_none read chosen, normalizeValue_of_none also chosen]
    rfl
  | some t =>
    have alike : normalizeValue tree name { p with declaredType := other } v =
        normalizeValue tree name p v :=
      (normalizeValue_of_some also chosen).trans (normalizeValue_of_some read chosen).symm
    rw [alike]
    cases result : normalizeValue tree name p v with
    | ok w => rfl
    | error e =>
      have same := declaredAs_of_some read chosen result other
      rw [Except.mapError, same]

end Members

theorem find?_eq_some_iff_decides {members : List ParameterType}
    (read : union declared = .ok members) (mem : ∀ t, t ∈ members ↔ Declares declared t) :
    members.find? (·.accepts v) = some t ↔ Decides declared v t := by
  rw [find?_accepts_iff (union_sublist read)]
  simp only [mem]
  exact ⟨fun ⟨declares, accepts, first⟩ => ⟨declares, accepts, first⟩,
    fun ⟨declares, accepts, first⟩ => ⟨declares, accepts, first⟩⟩

/-- Of the declared types the first that accepts the value decides. -/
theorem normalizeValue_of_known (known : Known p.declaredType) :
    (∃ t, (∀ u, Decides p.declaredType v u ↔ u = t) ∧
        normalizeValue tree name p v = settled tree name p t v) ∨
      (∀ t, Declares p.declaredType t → t.accepts v = false) ∧
        normalizeValue tree name p v = .error (.typeMismatch name p.declaredType v.kind) := by
  obtain ⟨members, read, mem⟩ := union_of_known known
  cases chosen : members.find? (·.accepts v) with
  | some t =>
    refine .inl ⟨t, fun u => ?_, normalizeValue_of_some read chosen⟩
    rw [← find?_eq_some_iff_decides read mem, chosen, Option.some.injEq, eq_comm]
  | none =>
    refine .inr ⟨fun t declared => ?_, normalizeValue_of_none read chosen⟩
    simpa using List.find?_eq_none.mp chosen t ((mem t).mpr declared)

theorem union_of_same_types {other : String} (known : Known declared) (known' : Known other)
    (same : ∀ t, Named other t ↔ Named declared t) : union other = union declared := by
  obtain ⟨members, read, mem⟩ := union_of_known known
  obtain ⟨others, read', mem'⟩ := union_of_known known'
  have alike : ∀ t, t ∈ others ↔ t ∈ members := by
    intro t
    rw [mem, mem']
    unfold Declares
    simp only [same]
  rw [read, read', eq_of_same_types (union_sublist read') (union_sublist read) alike]

/-- How a union of known types is written makes no difference: its members stand in the order in
which types are declared, the first that accepts a value decides, and another text with the same
types gives every value the same normal form or the same error, which may quote the text. -/
theorem normalizeValue_declared :
    (∀ t : ParameterType, t.rank = t.ctorIdx) ∧
      ∀ declared, Known declared →
        (∃ members, union declared = .ok members ∧
          members.Pairwise (fun t u => t.rank < u.rank) ∧
            ∀ t, t ∈ members ↔ Declares declared t) ∧
        (∀ tree name p v, p.declaredType = declared →
          (∃ t, (∀ u, Decides declared v u ↔ u = t) ∧
            normalizeValue tree name p v = settled tree name p t v) ∨
          (∀ t, Declares declared t → t.accepts v = false) ∧
            normalizeValue tree name p v = .error (.typeMismatch name declared v.kind)) ∧
        ∀ other, Known other → (∀ t, Named other t ↔ Named declared t) →
          union other = union declared ∧
          ∀ tree name (p : ParameterSpec) v,
            normalizeValue tree name { p with declaredType := other } v =
              (normalizeValue tree name { p with declaredType := declared } v).mapError
                (·.declaredAs other) := by
  refine ⟨rank_eq, fun declared known => ?_⟩
  obtain ⟨members, read, mem⟩ := union_of_known known
  refine ⟨⟨members, read, pairwise_rank.sublist (union_sublist read), mem⟩, ?_, ?_⟩
  · rintro tree name p v rfl
    exact normalizeValue_of_known known
  · intro other known' same
    have alike := union_of_same_types known known' same
    refine ⟨alike, fun tree name p v => ?_⟩
    have read' : union { p with declaredType := declared }.declaredType = .ok members := read
    exact normalizeValue_other read' (alike.trans read)

theorem normalizeValue_declared_numbers :
    Known "number|integer" ∧ Known " |INT||  Float|int|" ∧
      union " |INT||  Float|int|" = union "number|integer" ∧
      (∃ t, ∀ u, Decides "number|integer" (.string "7") u ↔ u = t) ∧
      ∀ tree name v, normalizeValue tree name (.ofType " |INT||  Float|int|") v =
        (normalizeValue tree name (.ofType "number|integer") v).mapError
          (·.declaredAs " |INT||  Float|int|") := by
  have known : Known "number|integer" := by decide +kernel
  have known' : Known " |INT||  Float|int|" := by decide +kernel
  have same : ∀ t, Named " |INT||  Float|int|" t ↔ Named "number|integer" t := by
    intro t
    cases t <;> decide +kernel
  obtain ⟨_, decided, respelled⟩ := normalizeValue_declared.2 _ known
  obtain ⟨alike, outcome⟩ := respelled _ known' same
  refine ⟨known, known', alike, ?_, fun tree name v => outcome tree name (.ofType "") v⟩
  have declared : Declares "number|integer" .integer := .inl (by decide +kernel)
  have accepted : integer.accepts (.string "7") = true := by decide +kernel
  rcases decided ⟨[], []⟩ "n" (.ofType "number|integer") (.string "7") rfl with
    ⟨t, decides, _⟩ | ⟨refused, _⟩
  · exact ⟨t, decides⟩
  · rw [refused .integer declared] at accepted
    cases accepted

end Validation

end CommandContract
