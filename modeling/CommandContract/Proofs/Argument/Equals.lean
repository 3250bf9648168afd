import CommandContract.Proofs.Argument.Nesting

set_option autoImplicit false

/-!
# The first equals sign

Two scans look for an equals sign outside of quotes and brackets: one keeps the open brackets, the
other only counts them. On a text that a scan for separators accepts, whatever the separator is, the
count is always the number of open brackets, and so the two find the same place:
`equalsOffset?_split`.
-/
namespace CommandContract.Argument

variable {sep c : Char} {cs stack : List Char} {place : Place} {pieces : List (List Char)}
  {cut : Option (List Char × List Char)}

/-- The pieces of a text and the cut at its first sign belong together: there is one piece and no
cut, or the cut is behind the first of several pieces. -/
inductive Agrees (cs : List Char) : List (List Char) → Option (List Char × List Char) → Prop
  | whole : Agrees cs [cs] none
  | cut {first after second : List Char} {others : List (List Char)}
      (here : cs = first ++ '=' :: after) : Agrees cs (first :: second :: others) (some (first, after))

theorem Agrees.cons (c : Char) (h : Agrees cs pieces cut) :
    Agrees (c :: cs) (consFirst c pieces) (cut.map (Prod.map (c :: ·) id)) := by
  cases h with
  | whole => exact .whole
  | cut here => exact .cut (congrArg (c :: ·) here)

/-- The text behind a sign has at least one piece. -/
theorem Agrees.sign (h : Agrees cs pieces cut) :
    Agrees ('=' :: cs) ([] :: pieces) (some ([], cs)) := by
  cases h with
  | whole => exact .cut rfl
  | cut here => exact .cut rfl

/-- The scans go on side by side, with as many brackets counted as there are open. -/
theorem agrees_of_splitFrom (h : splitFrom '=' place stack cs = .ok pieces) :
    Agrees cs pieces (cutAtEqualsFrom place stack.length cs) := by
  induction cs generalizing place stack pieces with
  | nil =>
    cases place with
    | plain =>
      cases stack with
      | nil =>
        cases h
        exact .whole
      | cons o stack => cases h
    | quoted q => cases h
    | escaped q => cases h
  | cons c cs ih =>
    obtain ⟨_, left, _, _, moves, read, rfl⟩ := moves_of_splitFrom h
    have behind := ih read
    cases moves with
    | quoted q => exact behind.cons c
    | escaped q => exact behind.cons c
    | quote quote =>
      rw [cutAtEqualsFrom, if_pos quote]
      exact behind.cons c
    | opens quote opening =>
      rw [cutAtEqualsFrom, quote, opening]
      exact behind.cons c
    | @closes o _ quote opening pair =>
      have count : ((o :: left).length : Int) - 1 = left.length := by simp
      rw [cutAtEqualsFrom, quote, opening, pair, count]
      exact behind.cons c
    | cuts plain sign =>
      rw [cutAtEqualsFrom, isQuote_of_not_mem plain, isOpening_of_not_mem plain,
        opening?_of_not_mem plain, sign]
      exact behind.sign
    | passes plain inside =>
      have uncut : ¬ (c = '=' ∧ (stack.length : Int) = 0) := by
        rintro ⟨sign, empty⟩
        exact inside sign (List.eq_nil_of_length_eq_zero (Int.ofNat_eq_zero.mp empty))
      rw [cutAtEqualsFrom, isQuote_of_not_mem plain, isOpening_of_not_mem plain,
        opening?_of_not_mem plain]
      simp only [Bool.false_eq_true, if_false, Option.isSome_none, if_neg uncut]
      exact behind.cons c

/-- A text that is accepted with one separator is accepted with any other that is no mark. -/
theorem split_of_split {other : Char} (plain : other ∉ marks) (h : split sep cs = .ok pieces) :
    ∃ parts, split other cs = .ok parts := by
  obtain ⟨_, nested⟩ := nested_of_split h
  obtain ⟨parts, law⟩ := nested.exists_pieces other
  exact ⟨parts, law.split plain⟩

/-- Where the first sign of an accepted text is: behind the first of several parts, and nowhere if
the text is one part. -/
theorem equalsOffset?_split {token : String} (accepted : split sep token.toList = .ok pieces) :
    ∃ first others, split '=' token.toList = .ok (first :: others) ∧
      (∀ i, equalsOffset? token = some i ↔ others ≠ [] ∧ i = Text.byteLength first) ∧
      (equalsOffset? token = none ↔ first :: others = [token.toList]) := by
  obtain ⟨parts, read⟩ := split_of_split (by decide : '=' ∉ marks) accepted
  have agrees : Agrees token.toList parts (cutAtEquals? token.toList) := agrees_of_splitFrom read
  unfold equalsOffset?
  generalize cutAtEquals? token.toList = found at agrees
  cases agrees with
  | whole => exact ⟨token.toList, [], read, by simp, by simp⟩
  | @cut first after second others here =>
    exact ⟨first, second :: others, read, by simp [eq_comm], by simp⟩

/-- Signs in a bracket and in quotes, and characters of several bytes in front of the one outside. -/
def sized : String := "größe[a='=']=\x7bb: \"=\"\x7d"

theorem equalsOffset?_split_sized : split ',' sized.toList = .ok [sized.toList] ∧
    split '=' sized.toList = .ok ["größe[a='=']".toList, "\x7bb: \"=\"\x7d".toList] ∧
    14 = Text.byteLength "größe[a='=']".toList ∧ equalsOffset? sized = some 14 := by
  have accepted : split ',' sized.toList = .ok [sized.toList] := by rfl
  have parts : split '=' sized.toList =
      .ok ["größe[a='=']".toList, "\x7bb: \"=\"\x7d".toList] := by rfl
  have size : 14 = Text.byteLength "größe[a='=']".toList := by rfl
  obtain ⟨first, others, read, found, -⟩ := equalsOffset?_split accepted
  obtain ⟨rfl, rfl⟩ := List.cons.inj (Except.ok.inj (read.symm.trans parts))
  exact ⟨accepted, parts, size, (found 14).mpr ⟨List.cons_ne_nil _ _, size⟩⟩

end CommandContract.Argument
