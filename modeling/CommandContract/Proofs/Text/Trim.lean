import CommandContract.Text.Blank
import Mathlib.Data.List.Basic
import Mathlib.Data.List.TakeWhile

set_option autoImplicit false

/-!
# Trimming

A text with blanks around it is trimmed to that text, if neither of its ends is blank.
-/
namespace CommandContract.Text

variable {cs ds text : List Char}

/-- Neither end of the text is blank, and it is not empty. -/
structure Tight (text : List Char) : Prop where
  ne_nil : text ≠ []
  head : ∀ c ∈ text.head?, isBlank c = false
  last : ∀ c ∈ text.getLast?, isBlank c = false

/-- The second text is the first one with blanks around it. -/
inductive Padded : List Char → List Char → Prop
  | mk {before cs behind : List Char} (hb : ∀ c ∈ before, isBlank c = true)
      (he : ∀ c ∈ behind, isBlank c = true) : Padded cs (before ++ cs ++ behind)

theorem not_isBlank_of_all (h : (text.all fun c => !isBlank c) = true) :
    ∀ c ∈ text, isBlank c = false := by
  simpa using h

theorem tight_of_all (ne : text ≠ []) (all : ∀ c ∈ text, isBlank c = false) : Tight text :=
  ⟨ne, fun c hc => all c (List.mem_of_mem_head? hc), fun c hc => all c (List.mem_of_getLast? hc)⟩

theorem tight_singleton {c : Char} (h : isBlank c = false) : Tight [c] :=
  tight_of_all (List.cons_ne_nil c []) fun _ hc => (List.mem_singleton.mp hc) ▸ h

theorem Tight.append (h : Tight cs) (between : List Char) (h' : Tight ds) :
    Tight (cs ++ between ++ ds) := by
  refine ⟨by simp [h.ne_nil], ?_, ?_⟩
  · intro c hc
    rw [List.append_assoc, List.head?_append_of_ne_nil _ h.ne_nil] at hc
    exact h.head c hc
  · intro c hc
    rw [List.getLast?_append_of_ne_nil _ h'.ne_nil] at hc
    exact h'.last c hc

/-- A text between two characters that are not blank. -/
theorem tight_between {c d : Char} (hc : isBlank c = false) (hd : isBlank d = false)
    (cs : List Char) : Tight (c :: (cs ++ [d])) :=
  (tight_singleton hc).append cs (tight_singleton hd)

theorem padded_append (cs : List Char) {behind : List Char} (he : ∀ c ∈ behind, isBlank c = true) :
    Padded cs (cs ++ behind) := by
  simpa using @Padded.mk [] cs behind (by nofun) he

theorem padded_self (cs : List Char) : Padded cs cs := by
  simpa using @padded_append cs [] (by nofun)

theorem dropWhile_isBlank (h : ∀ c ∈ cs.head?, isBlank c = false) : cs.dropWhile isBlank = cs := by
  cases cs with
  | nil => rfl
  | cons c cs => exact List.dropWhile_cons_of_neg (by simp [h c rfl])

theorem trim_of_padded (h : Padded cs text) (tight : Tight cs) : trim text = cs := by
  obtain ⟨hb, he⟩ := h
  rename_i before behind
  have start : trimStart (before ++ cs ++ behind) = cs ++ behind := by
    rw [trimStart, List.append_assoc, List.dropWhile_append_of_pos hb]
    refine dropWhile_isBlank ?_
    rw [List.head?_append_of_ne_nil _ tight.ne_nil]
    exact tight.head
  have back : ∀ c ∈ cs.reverse.head?, isBlank c = false := by
    rw [List.head?_reverse]
    exact tight.last
  rw [trim, start, trimEnd, List.reverse_append,
    List.dropWhile_append_of_pos fun c hc => he c (List.mem_reverse.mp hc), dropWhile_isBlank back,
    List.reverse_reverse]

theorem trim_of_tight (tight : Tight cs) : trim cs = cs := trim_of_padded (padded_self cs) tight

theorem trim_of_all (all : ∀ c ∈ cs, isBlank c = false) : trim cs = cs := by
  cases cs with
  | nil => rfl
  | cons c cs => exact trim_of_tight (tight_of_all (List.cons_ne_nil c cs) all)

theorem trim_isInfix (cs : List Char) : trim cs <:+: cs := by
  have back : trimEnd (trimStart cs) <+: trimStart cs := by
    rw [trimEnd, ← List.reverse_suffix, List.reverse_reverse]
    exact List.dropWhile_suffix isBlank
  exact back.isInfix.trans (List.dropWhile_suffix isBlank).isInfix

theorem trimEnd_append (cs : List Char) :
    trimEnd cs ++ (cs.reverse.takeWhile isBlank).reverse = cs := by
  rw [trimEnd, ← List.reverse_append, List.takeWhile_append_dropWhile, List.reverse_reverse]

/-- Trimming takes away blanks only. -/
theorem padded_trim (cs : List Char) : Padded (trim cs) cs := by
  have start : cs.takeWhile isBlank ++ trimStart cs = cs := List.takeWhile_append_dropWhile
  have back := trimEnd_append (trimStart cs)
  have blank : ∀ ds, ∀ c ∈ List.takeWhile isBlank ds, isBlank c = true :=
    fun ds c hc => List.all_eq_true.mp List.all_takeWhile c hc
  have padded : Padded (trim cs) (cs.takeWhile isBlank ++ trim cs ++
      ((trimStart cs).reverse.takeWhile isBlank).reverse) :=
    .mk (blank cs) fun c hc => blank _ c (List.mem_reverse.mp hc)
  rwa [List.append_assoc, trim, back, start] at padded

theorem tight_trim (ne : trim cs ≠ []) : Tight (trim cs) := by
  have front : ∀ ds, ∀ c ∈ (List.dropWhile isBlank ds).head?, isBlank c = false := by
    intro ds c hc
    have stop := List.head?_dropWhile_not isBlank ds
    rw [Option.mem_def.mp hc] at stop
    simpa using stop
  refine ⟨ne, fun c hc => front cs c ?_, fun c hc => front (trimStart cs).reverse c ?_⟩
  · rw [← trimStart, ← trimEnd_append (trimStart cs), ← trim, List.head?_append_of_ne_nil _ ne]
    exact hc
  · rwa [trim, trimEnd, List.getLast?_reverse] at hc

theorem trim_trim (cs : List Char) : trim (trim cs) = trim cs := by
  by_cases ne : trim cs = []
  · rw [ne]
    rfl
  · exact trim_of_tight (tight_trim ne)

theorem toList_trimBlank (s : String) : s.trimBlank.toList = trim s.toList := String.toList_ofList

theorem trim_of_blank (h : ∀ c ∈ cs, isBlank c = true) : trim cs = [] := by
  have gone : cs.dropWhile isBlank = [] := List.dropWhile_eq_nil_iff.mpr h
  rw [trim, trimStart, gone]
  rfl

end CommandContract.Text
