import CommandContract.Command.Call
import CommandContract.Proofs.Text.Class
import CommandContract.Proofs.Text.Pieces
import CommandContract.Proofs.Text.Trim

set_option autoImplicit false

/-!
# Lines

A line is a name, alone or with something in parentheses. Blanks around the line, around the name
and inside the parentheses do not count, and the name has no blank and no parenthesis in it. So the
line is cut at the right places, whatever stands between the parentheses: `readLine_parenthesized`.
-/
namespace CommandContract

namespace Call

open Text (Padded Tight isBlank trim trim_of_padded trim_of_tight)

/-! ## Names -/

theorem isNameChar_of_isNameStart {c : Char} (h : isNameStart c = true) : isNameChar c = true := by
  rcases Bool.or_eq_true_iff.mp h with letter | underscore
  · simp [isNameChar, Char.isAlphanum, letter]
  · simp [isNameChar, of_decide_eq_true underscore]

/-- The characters of a name are those of its segments, and slashes. -/
theorem mem_name {cs : List Char} (h : isName cs = true) {c : Char} (hc : c ∈ cs) :
    c = '/' ∨ isNameChar c = true := by
  refine (Text.mem_splitOn hc).imp_right ?_
  rintro ⟨piece, hp, hc⟩
  have segment := List.all_eq_true.mp h piece hp
  cases piece with
  | nil => cases hc
  | cons d ds =>
    obtain ⟨start, all⟩ := Bool.and_eq_true_iff.mp segment
    rcases List.mem_cons.mp hc with rfl | hc
    · exact isNameChar_of_isNameStart start
    · exact List.all_eq_true.mp all c hc

theorem isBlank_of_isNameChar {c : Char} (h : isNameChar c = true) : isBlank c = false := by
  simp only [isNameChar, Bool.or_eq_true, decide_eq_true_eq] at h
  rcases h with ((h | rfl) | rfl) | rfl
  · exact Text.isBlank_of_isAlphanum h
  all_goals decide

theorem tight_name {cs : List Char} (h : isName cs = true) : Tight cs := by
  refine Text.tight_of_all ?_ fun c hc => ?_
  · rintro rfl
    cases h
  · rcases mem_name h hc with rfl | name
    · decide
    · exact isBlank_of_isNameChar name

/-- A name is not cut by the parenthesis behind it, nor are blanks. -/
theorem parenthesis_not_mem {cs : List Char} (h : ∀ c ∈ cs, isBlank c = true) : '(' ∉ cs := by
  intro hm
  exact absurd (h _ hm) (by decide)

theorem parenthesis_not_mem_name {cs : List Char} (h : isName cs = true) : '(' ∉ cs := by
  intro hm
  rcases mem_name h hm with slash | name
  · exact absurd slash (by decide)
  · exact absurd name (by decide)

/-! ## Reading a line -/

section Lines

variable {tree : FileTree} {m : Manifest} {c : String} {spec : CommandSpec} {name : List Char}

theorem command_eq_ok (known : m.get? c = some spec) (ident : isName c.toList = true) :
    command m c.toList = .ok spec := by
  rw [command, ident, String.ofList_toList, known]
  rfl

theorem readLine_name (known : m.get? c = some spec) (ident : isName c.toList = true)
    (padded : Padded c.toList name) : readLine tree m (String.ofList name) = .ok ⟨spec.name, []⟩ := by
  have tight := tight_name ident
  have nonempty : c.toList.isEmpty = false := List.isEmpty_eq_false_iff.mpr tight.ne_nil
  unfold readLine
  rw [String.toList_ofList, trim_of_padded padded tight]
  simp only [nonempty, Text.cutAt?_of_not_mem (parenthesis_not_mem_name ident),
    command_eq_ok known ident]
  rfl

/-- What stands between the first parenthesis and the last one is read for the arguments. -/
theorem readLine_parenthesized (known : m.get? c = some spec) (ident : isName c.toList = true)
    (padded : Padded c.toList name) (body : List Char) {behind : List Char}
    (blank : ∀ c ∈ behind, isBlank c = true) :
    readLine tree m (String.ofList (name ++ '(' :: (body ++ ')' :: behind))) =
      (bodyArguments tree spec (trim body)).map (⟨spec.name, ·⟩) := by
  have tight := tight_name ident
  obtain ⟨hb, he⟩ := padded
  rename_i before after
  have core : trim (before ++ c.toList ++ after ++ '(' :: (body ++ ')' :: behind)) =
      (c.toList ++ after) ++ '(' :: (body ++ [')']) := by
    have ends : Tight (c.toList ++ (after ++ '(' :: body) ++ [')']) :=
      tight.append _ (Text.tight_singleton (by decide))
    have whole := trim_of_padded (.mk hb blank) ends
    simpa using whole
  have nonempty : ((c.toList ++ after) ++ '(' :: (body ++ [')'])).isEmpty = false := by
    rw [List.isEmpty_eq_false_iff]
    exact List.append_ne_nil_of_right_ne_nil _ nofun
  have cut : Text.cutAt? '(' ((c.toList ++ after) ++ '(' :: (body ++ [')'])) =
      some (c.toList ++ after, body ++ [')']) := by
    refine Text.cutAt?_append_cons ?_ _
    rw [List.mem_append, not_or]
    exact ⟨parenthesis_not_mem_name ident, parenthesis_not_mem he⟩
  have named : trim (c.toList ++ after) = c.toList := 
    trim_of_padded (Text.padded_append _ he) tight
  have closed : (body ++ [')']).getLast? = some ')' := List.getLast?_concat
  unfold readLine
  rw [String.toList_ofList, core]
  simp only [nonempty, cut, closed, named, List.dropLast_concat, command_eq_ok known ident]
  rfl

/-- A body that is an object literal gives its members. -/
theorem bodyArguments_object {text : String} {args : Members Value} (nonempty : text.toList ≠ [])
    (h : Literal.parseJsonFirst text = .ok (.object args)) :
    bodyArguments tree spec text.toList = .ok args := by
  have body : text.toList.isEmpty = false := List.isEmpty_eq_false_iff.mpr nonempty
  rw [bodyArguments, body, literalArguments, String.ofList_toList, h]
  rfl

end Lines

end Call

end CommandContract
