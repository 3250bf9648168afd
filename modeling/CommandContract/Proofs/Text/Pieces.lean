import Mathlib.Data.List.Induction
import Mathlib.Data.List.Infix
import CommandContract.Text.Pieces

set_option autoImplicit false

/-!
# Cutting and joining

Cutting a text at a separator and joining the pieces are inverse to each other. A text is cut in two
at the first separator, or at the first place where two characters stand side by side.
-/
namespace CommandContract.Text

/-! ## Pieces between separators -/

section Separator

variable {sep c : Char} {cs before after : List Char}

theorem splitOn_ne_nil (sep : Char) (cs : List Char) : splitOn sep cs ≠ [] := by
  cases cs with
  | nil => exact nofun
  | cons c cs =>
    rw [splitOn]
    split
    · exact nofun
    · split <;> exact nofun

theorem not_mem_of_mem_splitOn {piece : List Char} (h : piece ∈ splitOn sep cs) : sep ∉ piece := by
  induction cs generalizing piece with
  | nil =>
    rw [splitOn, List.mem_singleton] at h
    rw [h]
    exact List.not_mem_nil
  | cons c cs ih =>
    rw [splitOn] at h
    split at h
    · rcases List.mem_cons.mp h with rfl | h
      · exact List.not_mem_nil
      · exact ih h
    · rename_i hc
      split at h
      · rename_i he
        exact absurd he (splitOn_ne_nil sep cs)
      · rename_i first others he
        rw [he] at ih
        rcases List.mem_cons.mp h with rfl | h
        · rw [List.mem_cons, not_or]
          exact ⟨Ne.symm hc, ih List.mem_cons_self⟩
        · exact ih (List.mem_cons_of_mem _ h)

theorem splitOn_of_not_mem (h : sep ∉ cs) : splitOn sep cs = [cs] := by
  induction cs with
  | nil => rfl
  | cons c cs ih =>
    rw [List.mem_cons, not_or] at h
    rw [splitOn, if_neg (Ne.symm h.1), ih h.2]

/-- What stands on both sides of a separator is cut on its own. -/
theorem splitOn_append (sep : Char) (cs more : List Char) :
    splitOn sep (cs ++ sep :: more) = splitOn sep cs ++ splitOn sep more := by
  induction cs with
  | nil => exact if_pos rfl
  | cons c cs ih =>
    rw [List.cons_append, splitOn, splitOn, ih]
    split
    · rfl
    · cases pieces : splitOn sep cs with
      | nil => exact absurd pieces (splitOn_ne_nil sep cs)
      | cons first others => rfl

theorem splitOn_append_cons (h : sep ∉ cs) (more : List Char) :
    splitOn sep (cs ++ sep :: more) = cs :: splitOn sep more := by
  rw [splitOn_append, splitOn_of_not_mem h]
  rfl

/-- Cutting takes apart what joining put together. -/
theorem splitOn_intercalate {pieces : List (List Char)} (hne : pieces ≠ [])
    (h : ∀ piece ∈ pieces, sep ∉ piece) : splitOn sep ([sep].intercalate pieces) = pieces := by
  induction pieces with
  | nil => exact absurd rfl hne
  | cons piece pieces ih =>
    rw [List.forall_mem_cons] at h
    cases pieces with
    | nil =>
      rw [List.intercalate_singleton]
      exact splitOn_of_not_mem h.1
    | cons next others =>
      rw [List.intercalate_cons_cons, List.append_assoc, List.singleton_append,
        splitOn_append_cons h.1, ih nofun h.2]

/-- What is joined of pieces that are not empty does not end in the separator. -/
theorem getLast?_intercalate {pieces : List (List Char)} (hne : pieces ≠ [])
    (h : ∀ piece ∈ pieces, piece ≠ [] ∧ sep ∉ piece) :
    ∃ c, ([sep].intercalate pieces).getLast? = some c ∧ c ≠ sep := by
  induction pieces with
  | nil => exact absurd rfl hne
  | cons piece pieces ih =>
    rw [List.forall_mem_cons] at h
    cases pieces with
    | nil =>
      refine ⟨piece.getLast h.1.1, ?_, fun he => h.1.2 (he ▸ List.getLast_mem h.1.1)⟩
      rw [List.intercalate_singleton]
      exact List.getLast?_eq_some_getLast h.1.1
    | cons next others =>
      obtain ⟨c, hc, other⟩ := ih nofun h.2
      refine ⟨c, ?_, other⟩
      rw [List.intercalate_cons_cons, List.append_assoc, List.singleton_append,
        List.getLast?_append, List.getLast?_cons, hc]
      rfl

theorem intercalate_concat {pieces : List (List Char)} (hne : pieces ≠ []) (last : List Char) :
    [sep].intercalate (pieces ++ [last]) = [sep].intercalate pieces ++ sep :: last := by
  induction pieces with
  | nil => exact absurd rfl hne
  | cons piece pieces ih =>
    cases pieces with
    | nil =>
      rw [List.singleton_append, List.intercalate_cons_cons, List.intercalate_singleton,
        List.intercalate_singleton, List.append_assoc, List.singleton_append]
    | cons next others =>
      rw [List.cons_append, List.cons_append, List.intercalate_cons_cons, ← List.cons_append,
        ih (List.cons_ne_nil _ _), List.intercalate_cons_cons, List.append_assoc, List.append_assoc,
        List.append_assoc]

theorem intercalate_splitOn (sep : Char) (cs : List Char) :
    [sep].intercalate (splitOn sep cs) = cs := by
  induction cs with
  | nil => rfl
  | cons c cs ih =>
    rw [splitOn]
    cases pieces : splitOn sep cs with
    | nil => exact absurd pieces (splitOn_ne_nil sep cs)
    | cons first others =>
      rw [pieces] at ih
      split
      · rename_i hc
        rw [List.intercalate_cons_cons, ih, hc]
        rfl
      · cases others with
        | nil => rw [List.intercalate_singleton] at ih ⊢; rw [ih]
        | cons next others =>
          rw [List.intercalate_cons_cons] at ih ⊢
          rw [List.cons_append, List.cons_append, ih]

/-- What is joined of the first pieces comes first. -/
theorem intercalate_prefix {pieces all : List (List Char)} (h : pieces <+: all) :
    [sep].intercalate pieces <+: [sep].intercalate all := by
  obtain ⟨more, rfl⟩ := h
  induction pieces with
  | nil => exact List.nil_prefix
  | cons piece pieces ih =>
    cases pieces with
    | nil =>
      rw [List.intercalate_singleton]
      cases more with
      | nil => rw [List.append_nil, List.intercalate_singleton]
      | cons next others =>
        rw [List.singleton_append, List.intercalate_cons_cons, List.append_assoc]
        exact List.prefix_append piece _
    | cons next others =>
      rw [List.cons_append, List.cons_append, List.intercalate_cons_cons,
        List.intercalate_cons_cons]
      exact (List.prefix_append_right_inj _).mpr ih

theorem mem_intercalate {pieces : List (List Char)} (h : c ∈ [sep].intercalate pieces) :
    c = sep ∨ ∃ piece ∈ pieces, c ∈ piece := by
  induction pieces with
  | nil => cases h
  | cons piece pieces ih =>
    cases pieces with
    | nil =>
      rw [List.intercalate_singleton] at h
      exact .inr ⟨piece, List.mem_cons_self, h⟩
    | cons next others =>
      rw [List.intercalate_cons_cons, List.append_assoc, List.singleton_append] at h
      rcases List.mem_append.mp h with h | h
      · exact .inr ⟨piece, List.mem_cons_self, h⟩
      · rcases List.mem_cons.mp h with rfl | h
        · exact .inl rfl
        · exact (ih h).imp_right fun ⟨piece, hp, hc⟩ => ⟨piece, List.mem_cons_of_mem _ hp, hc⟩

theorem mem_of_mem_piece {piece : List Char} (h : piece ∈ splitOn sep cs) (hc : c ∈ piece) :
    c ∈ cs := by
  obtain ⟨before, after, split⟩ := List.append_of_mem h
  have first : [sep].intercalate (before ++ [piece]) <+: cs := by
    rw [← intercalate_splitOn sep cs]
    refine intercalate_prefix ⟨after, ?_⟩
    rw [split, List.append_assoc]
    rfl
  refine first.subset ?_
  cases before with
  | nil => rwa [List.nil_append, List.intercalate_singleton]
  | cons next others =>
    rw [intercalate_concat (List.cons_ne_nil _ _)]
    exact List.mem_append_right _ (List.mem_cons_of_mem _ hc)

theorem mem_splitOn (h : c ∈ cs) : c = sep ∨ ∃ piece ∈ splitOn sep cs, c ∈ piece := by
  rw [← intercalate_splitOn sep cs] at h
  exact mem_intercalate h

/-! ## The first separator -/

theorem cutAt?_of_not_mem (h : sep ∉ cs) : cutAt? sep cs = none := by
  induction cs with
  | nil => rfl
  | cons c cs ih =>
    rw [List.mem_cons, not_or] at h
    rw [cutAt?, if_neg (Ne.symm h.1), ih h.2, Option.map_none]

theorem cutAt?_append_cons (h : sep ∉ cs) (more : List Char) :
    cutAt? sep (cs ++ sep :: more) = some (cs, more) := by
  induction cs with
  | nil => rw [List.nil_append, cutAt?, if_pos rfl]
  | cons c cs ih =>
    rw [List.mem_cons, not_or] at h
    rw [List.cons_append, cutAt?, if_neg (Ne.symm h.1), ih h.2, Option.map_some]

theorem cutAt?_append (h : cutAt? sep cs = some (before, after)) (more : List Char) :
    cutAt? sep (cs ++ more) = some (before, after ++ more) := by
  induction cs generalizing before with
  | nil => cases h
  | cons c cs ih =>
    rw [cutAt?] at h
    rw [List.cons_append, cutAt?]
    split at h
    · rename_i hc
      cases h
      rw [if_pos hc]
    · rename_i hc
      obtain ⟨⟨first, rest⟩, cut, same⟩ := Option.map_eq_some_iff.mp h
      cases same
      rw [if_neg hc, ih cut, Option.map_some]

theorem not_mem_of_cutAt?_eq_none (h : cutAt? sep cs = none) : sep ∉ cs := by
  induction cs with
  | nil => exact List.not_mem_nil
  | cons c cs ih =>
    rw [cutAt?] at h
    split at h
    · cases h
    · rename_i hc
      rw [List.mem_cons, not_or]
      exact ⟨Ne.symm hc, ih (Option.map_eq_none_iff.mp h)⟩

end Separator

/-! ## The first pair -/

section Pair

variable {x y a : Char} {cs ds inner rest : List Char}

theorem pair_infix_cons_iff :
    [x, y] <:+: a :: cs ↔ a = x ∧ cs.head? = some y ∨ [x, y] <:+: cs := by
  rw [List.infix_cons_iff, List.cons_prefix_cons, eq_comm]
  refine or_congr (and_congr Iff.rfl ?_) Iff.rfl
  cases cs with
  | nil => simp
  | cons b cs => simp [List.cons_prefix_cons, eq_comm]

/-- Two equal characters stand in front of a third one, or reach up to it. -/
theorem pair_infix_append_iff :
    [x, x] <:+: cs ++ [x] ↔ [x, x] <:+: cs ∨ cs.getLast? = some x := by
  induction cs with
  | nil => simpa using fun h : [x, x] <:+: [x] => absurd h.length_le (by simp)
  | cons b cs ih =>
    rw [List.cons_append, pair_infix_cons_iff, ih, pair_infix_cons_iff, or_assoc]
    cases cs with
    | nil => simp
    | cons c cs => simp [List.getLast?_cons_cons]

/-- No pair of equal characters reaches over another character. -/
theorem pair_infix_append_cons_iff (h : a ≠ x) :
    [x, x] <:+: cs ++ a :: ds ↔ [x, x] <:+: cs ∨ [x, x] <:+: ds := by
  induction cs with
  | nil => simp [pair_infix_cons_iff, h]
  | cons b cs ih =>
    rw [List.cons_append, pair_infix_cons_iff, ih, pair_infix_cons_iff, or_assoc]
    cases cs with
    | nil => simp [h]
    | cons c cs => rfl

theorem cutAtPair?_cons (x y a : Char) (cs : List Char) :
    cutAtPair? x y (a :: cs) =
      if a = x ∧ cs.head? = some y then some ([], cs.tail)
      else (cutAtPair? x y cs).map fun (before, after) => (a :: before, after) := by
  cases cs <;> simp [cutAtPair?]

theorem cutAtPair?_eq_none_iff : cutAtPair? x y cs = none ↔ ¬ [x, y] <:+: cs := by
  induction cs with
  | nil => simp [cutAtPair?]
  | cons a cs ih =>
    rw [cutAtPair?_cons, pair_infix_cons_iff, not_or, ← ih]
    split
    · rename_i here
      exact ⟨nofun, fun h => absurd here h.1⟩
    · rename_i here
      rw [Option.map_eq_none_iff]
      exact ⟨fun h => ⟨here, h⟩, And.right⟩

/-- The cut is at the first pair: the part before it has none, not even with what follows. -/
theorem cutAtPair?_eq_some_iff :
    cutAtPair? x y cs = some (inner, rest) ↔
      cs = inner ++ x :: y :: rest ∧ ¬ [x, y] <:+: inner ++ [x] := by
  have first_eq : ∀ before : List Char,
      (before ++ [x]).head? = some y ↔ (before ++ x :: y :: rest).head? = some y := by
    rintro (_ | ⟨b, before⟩) <;> rfl
  induction cs generalizing inner with
  | nil => simp [cutAtPair?]
  | cons a cs ih =>
    rw [cutAtPair?_cons]
    by_cases here : a = x ∧ cs.head? = some y
    · obtain ⟨rfl, next⟩ := here
      rw [if_pos ⟨rfl, next⟩, Option.some.injEq, Prod.mk.injEq]
      obtain ⟨cs, rfl⟩ := List.head?_eq_some_iff.mp next
      constructor
      · rintro ⟨rfl, rfl⟩
        exact ⟨rfl, fun h => by simpa using h.length_le⟩
      · rintro ⟨split, first⟩
        cases inner with
        | nil =>
          simp only [List.nil_append, List.cons.injEq, true_and] at split
          exact ⟨rfl, split⟩
        | cons b inner =>
          obtain ⟨rfl, tail⟩ := List.cons.inj split
          have again : (inner ++ [a]).head? = some y :=
            (first_eq inner).mpr (by rw [← List.append_eq, ← tail]; rfl)
          exact absurd (pair_infix_cons_iff.mpr (.inl ⟨rfl, again⟩)) first
    · rw [if_neg here, Option.map_eq_some_iff]
      constructor
      · rintro ⟨⟨before, _⟩, hr, he⟩
        cases he
        obtain ⟨rfl, first⟩ := ih.mp hr
        refine ⟨rfl, fun h => ?_⟩
        rcases pair_infix_cons_iff.mp h with ⟨rfl, next⟩ | h
        · exact here ⟨rfl, (first_eq before).mp next⟩
        · exact first h
      · rintro ⟨split, first⟩
        cases inner with
        | nil =>
          obtain ⟨rfl, rfl⟩ := List.cons.inj split
          exact absurd ⟨rfl, rfl⟩ here
        | cons b inner =>
          obtain ⟨rfl, tail⟩ := List.cons.inj split
          have later : ¬ [x, y] <:+: inner ++ [x] := fun h =>
            first (pair_infix_cons_iff.mpr (.inr h))
          exact ⟨(inner, rest), ih.mpr ⟨tail, later⟩, rfl⟩

end Pair

/-! ## The rest of a text -/

theorem isSome_dropLeading?_iff {lead cs : List Char} :
    (dropLeading? lead cs).isSome = true ↔ lead <+: cs := by
  rw [← List.isPrefixOf_iff_prefix, dropLeading?]
  split <;> simp [*]

theorem dropLeading?_append (lead rest : List Char) :
    dropLeading? lead (lead ++ rest) = some rest := by
  have begins : lead.isPrefixOf (lead ++ rest) = true :=
    List.isPrefixOf_iff_prefix.mpr (List.prefix_append lead rest)
  rw [dropLeading?, if_pos begins, List.drop_left]

theorem dropLeading?_suffix {lead cs rest : List Char} (h : dropLeading? lead cs = some rest) :
    rest <:+ cs := by
  unfold dropLeading? at h
  split at h
  · cases h
    exact List.drop_suffix lead.length cs
  · cases h

end CommandContract.Text
