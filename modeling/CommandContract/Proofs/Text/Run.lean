import Mathlib.Data.List.TakeDrop

set_option autoImplicit false

/-!
# Runs of characters

Two ways to go over characters of one class: any number of them, or as many as there are.
-/
namespace CommandContract.Text

variable {ofClass : Char → Bool} {c : Char} {cs ds run rest : List Char}

/-- Any number of characters of a class in front of what is left. -/
inductive Skips (ofClass : Char → Bool) : List Char → List Char → Prop
  | stay (cs : List Char) : Skips ofClass cs cs
  | past {c : Char} {cs rest : List Char} (h : ofClass c = true) (more : Skips ofClass cs rest) :
      Skips ofClass (c :: cs) rest

/-- A run of characters of one class that does not go on. -/
structure Run (ofClass : Char → Bool) (cs run rest : List Char) : Prop where
  split : cs = run ++ rest
  all : ∀ c ∈ run, ofClass c = true
  maximal : ∀ c ∈ rest.head?, ofClass c = false

theorem skips_dropWhile (ofClass : Char → Bool) (cs : List Char) :
    Skips ofClass cs (cs.dropWhile ofClass) := by
  induction cs with
  | nil => exact .stay []
  | cons c cs ih =>
    by_cases h : ofClass c = true
    · rw [List.dropWhile_cons_of_pos h]
      exact .past h ih
    · rw [List.dropWhile_cons_of_neg h]
      exact .stay _

theorem Skips.dropWhile_eq (h : Skips ofClass cs ds) (stop : ∀ c ∈ ds.head?, ofClass c = false) :
    cs.dropWhile ofClass = ds := by
  induction h with
  | stay cs =>
    cases cs with
    | nil => rfl
    | cons c cs => exact List.dropWhile_cons_of_neg (by simp [stop c rfl])
  | past h _ ih =>
    rw [List.dropWhile_cons_of_pos h]
    exact ih stop

theorem Skips.length_le (h : Skips ofClass cs ds) : ds.length ≤ cs.length := by
  induction h with
  | stay => exact Nat.le_refl _
  | past _ _ ih => exact Nat.le_succ_of_le ih

/-- What is skipped stands in front of a character. -/
theorem Skips.length_lt (h : Skips ofClass cs (c :: ds)) : ds.length < cs.length := h.length_le

/-- In front of a character of another class nothing is skipped. -/
theorem Skips.eq_of_head (h : Skips ofClass cs ds) (stop : ∀ c ∈ cs.head?, ofClass c = false) :
    cs = ds := by
  cases h with
  | stay => rfl
  | past h =>
    rw [stop _ rfl] at h
    cases h

theorem Skips.all (h : Skips ofClass cs []) : ∀ c ∈ cs, ofClass c = true := by
  generalize he : ([] : List Char) = rest at h
  induction h with
  | stay cs =>
    subst he
    exact nofun
  | past h _ ih => exact List.forall_mem_cons.mpr ⟨h, ih he⟩

theorem Skips.append (h : Skips ofClass cs ds) (more : List Char) :
    Skips ofClass (cs ++ more) (ds ++ more) := by
  induction h with
  | stay => exact .stay _
  | past h _ ih => exact .past h ih

theorem Skips.mono {wider : Char → Bool} (h : Skips ofClass cs ds)
    (wide : ∀ c, ofClass c = true → wider c = true) : Skips wider cs ds := by
  induction h with
  | stay => exact .stay _
  | past h _ ih => exact .past (wide _ h) ih

theorem run_iff : Run ofClass cs run rest ↔ cs.span ofClass = (run, rest) := by
  rw [List.span_eq_takeWhile_dropWhile, Prod.mk.injEq]
  constructor
  · rintro ⟨rfl, all, maximal⟩
    have stop : rest.takeWhile ofClass = [] ∧ rest.dropWhile ofClass = rest := by
      cases rest with
      | nil => exact ⟨rfl, rfl⟩
      | cons c rest =>
        have hc := maximal c rfl
        simp [hc]
    rw [List.takeWhile_append_of_pos all, List.dropWhile_append_of_pos all, stop.1, stop.2]
    exact ⟨List.append_nil run, rfl⟩
  · rintro ⟨rfl, rfl⟩
    refine ⟨List.takeWhile_append_dropWhile.symm,
      fun c hc => List.all_eq_true.mp List.all_takeWhile c hc, ?_⟩
    intro c hc
    have := List.head?_dropWhile_not ofClass cs
    rw [Option.mem_def.mp hc] at this
    simpa using this

theorem Run.length_lt (h : Run ofClass cs run rest) (hr : run ≠ []) : rest.length < cs.length := by
  have := List.length_pos_iff.mpr hr
  rw [h.split, List.length_append]
  omega

/-- The run of a class is not empty if the first character is of the class. -/
theorem Run.ne_nil (h : Run ofClass (c :: cs) run rest) (hc : ofClass c = true) : run ≠ [] := by
  rintro rfl
  have stop := h.maximal c (by rw [← List.nil_append rest, ← h.split]; rfl)
  rw [hc] at stop
  cases stop

end CommandContract.Text
