import CommandContract.Proofs.Argument.Split
import CommandContract.Proofs.Condition.Lexing
import CommandContract.Proofs.Except

set_option autoImplicit false

/-!
# Nested texts

Which texts have their quotes closed and their brackets matched, said without a scan, and what of
such a text stands outside of both. The scan for separators accepts these texts and no others,
whatever the separator is, and cuts them at the separators that stand outside: `split_splits`.
-/
namespace CommandContract.Argument

open Condition (Quoted)

variable {sep c q o : Char} {cs ds rest raw body stack outside other : List Char}
  {pieces : List (List Char)}

/-! ## Quotes and brackets -/

/-- A text in which every quote is closed and the brackets outside of quotes match, and the
characters of it that stand outside of quotes and brackets. A backslash means something in quotes
only. -/
inductive Nested : List Char → List Char → Prop
  | nil : Nested [] []
  | char {c : Char} {cs outside : List Char} (plain : c ∉ marks) (more : Nested cs outside) :
      Nested (c :: cs) (c :: outside)
  | quoted {q : Char} {raw body cs outside : List Char} (quote : isQuote q = true)
      (inside : Quoted q raw body) (more : Nested cs outside) : Nested (q :: (raw ++ cs)) outside
  | bracketed {o c : Char} {cs inside ds outside : List Char} (pair : opening? c = some o)
      (within : Nested cs inside) (more : Nested ds outside) :
      Nested (o :: (cs ++ c :: ds)) outside

theorem Nested.append (h : Nested cs outside) (h' : Nested ds other) :
    Nested (cs ++ ds) (outside ++ other) := by
  induction h with
  | nil => exact h'
  | char plain _ ih => exact .char plain ih
  | quoted quote inside _ ih =>
    rw [List.cons_append, List.append_assoc]
    exact .quoted quote inside ih
  | bracketed pair within _ _ ih =>
    rw [List.cons_append, List.append_assoc, List.cons_append]
    exact .bracketed pair within ih

theorem nested_of_plain (plain : ∀ c ∈ cs, c ∉ marks) : Nested cs cs := by
  induction cs with
  | nil => exact .nil
  | cons c cs ih =>
    obtain ⟨first, others⟩ := List.forall_mem_cons.mp plain
    exact .char first (ih others)

/-- A quoted text by itself. -/
theorem nested_quoted (quote : isQuote q = true) (inside : Quoted q raw body) :
    Nested (q :: raw) [] := by
  have alone := Nested.quoted quote inside .nil
  rwa [List.append_nil] at alone

/-- Where a character stands outside, the text is nested in front of it and behind it. -/
theorem Nested.cut {before after : List Char} (h : Nested cs (before ++ c :: after)) :
    ∃ first rest, cs = first ++ c :: rest ∧ Nested first before ∧ Nested rest after := by
  generalize split : before ++ c :: after = outside at h
  induction h generalizing before with
  | nil => simp at split
  | @char d cs outside plain more ih =>
    cases before with
    | nil =>
      obtain ⟨rfl, rfl⟩ := List.cons.inj split
      exact ⟨[], cs, rfl, .nil, more⟩
    | cons e before =>
      obtain ⟨rfl, split'⟩ := List.cons.inj split
      obtain ⟨first, rest, rfl, front, back⟩ := ih split'
      exact ⟨e :: first, rest, rfl, .char plain front, back⟩
  | @quoted q raw body cs outside quote inside _ ih =>
    obtain ⟨first, rest, rfl, front, back⟩ := ih split
    exact ⟨q :: (raw ++ first), rest, by simp, .quoted quote inside front, back⟩
  | @bracketed o d cs _ ds outside pair within _ _ ih =>
    obtain ⟨first, rest, rfl, front, back⟩ := ih split
    exact ⟨o :: (cs ++ d :: first), rest, by simp, .bracketed pair within front, back⟩

/-! ## The scan of a nested text -/

theorem isQuote_iff : isQuote q = true ↔ q = '"' ∨ q = '\'' := by
  simp [isQuote]

theorem bare_of_isQuote (quote : isQuote q = true) : q ≠ '\\' := by
  rintro rfl
  cases quote

theorem splitFrom_quoted (quote : isQuote q = true) (h : Quoted q raw body) (rest : List Char) :
    splitFrom sep (.quoted q) stack (raw ++ rest) =
      (splitFrom sep .plain stack rest).map (prepend raw) := by
  induction h with
  | close =>
    rw [List.singleton_append, splitFrom, Place.next, if_neg (bare_of_isQuote quote), if_pos rfl]
    rfl
  | @plain c raw body other unescaped _ ih =>
    rw [List.cons_append, splitFrom, Place.next, if_neg unescaped, if_neg other, ih]
    exact map_prepend _ [c] raw
  | @escaped c raw body _ ih =>
    rw [List.cons_append, List.cons_append, splitFrom, Place.next, if_pos rfl, splitFrom, ih]
    exact (congrArg _ (map_prepend _ [c] raw)).trans (map_prepend _ ['\\'] (c :: raw))

theorem passes_quotes (quote : isQuote q = true) (h : Quoted q raw body) :
    Passes sep stack (q :: raw) stack := by
  intro rest
  rw [List.cons_append, splitFrom, if_pos quote, splitFrom_quoted quote h]
  exact map_prepend _ [q] raw

theorem mem_marks (h : c ∈ marks) :
    isQuote c = true ∨ isOpening c = true ∨ ∃ o, opening? c = some o := by
  simp only [marks, List.mem_cons, List.not_mem_nil, or_false] at h
  rcases h with rfl | rfl | rfl | rfl | rfl | rfl | rfl | rfl
  · exact .inl rfl
  · exact .inl rfl
  · exact .inr (.inl rfl)
  · exact .inr (.inl rfl)
  · exact .inr (.inl rfl)
  all_goals exact .inr (.inr ⟨_, rfl⟩)

theorem opening?_eq_some_iff :
    opening? c = some o ↔ c = ')' ∧ o = '(' ∨ c = ']' ∧ o = '[' ∨ c = '\x7d' ∧ o = '\x7b' := by
  unfold opening?
  split <;> simp_all [eq_comm]

theorem passes_pair (pair : opening? c = some o) (h : Passes sep (o :: stack) cs (o :: stack)) :
    Passes sep stack (o :: (cs ++ [c])) stack := by
  have opens : Passes sep stack [o] (o :: stack) := by
    rcases opening?_eq_some_iff.mp pair with ⟨-, rfl⟩ | ⟨-, rfl⟩ | ⟨-, rfl⟩ <;>
      exact passes_opening rfl rfl
  have closes : Passes sep (o :: stack) [c] stack := by
    refine passes_closing ?_ ?_ pair <;>
      rcases opening?_eq_some_iff.mp pair with ⟨rfl, -⟩ | ⟨rfl, -⟩ | ⟨rfl, -⟩ <;> rfl
  exact opens.trans (h.trans closes)

/-- Inside of a bracket nothing separates, and outside only a separator does. -/
theorem Nested.passes (h : Nested cs outside) (apart : sep ∈ outside → stack ≠ []) :
    Passes sep stack cs stack := by
  induction h generalizing stack with
  | nil => exact passes_nil sep stack
  | @char c cs outside plain _ ih =>
    have first : Passes sep stack [c] stack :=
      passes_char plain fun same => apart (same ▸ List.mem_cons_self)
    exact first.trans (ih fun inside => apart (List.mem_cons_of_mem c inside))
  | quoted quote inside _ ih => exact (passes_quotes quote inside).trans (ih apart)
  | @bracketed o c cs inside ds outside pair _ _ within ih =>
    have whole := (passes_pair pair (within fun _ => List.cons_ne_nil o stack)).trans (ih apart)
    rwa [List.cons_append, List.append_assoc, List.singleton_append] at whole

/-! ## Pieces -/

/-- A nested text in which nothing separates. -/
def Whole (sep : Char) (cs : List Char) : Prop := ∃ outside, Nested cs outside ∧ sep ∉ outside

theorem Whole.passes (h : Whole sep cs) : Passes sep stack cs stack := by
  obtain ⟨outside, nested, none⟩ := h
  exact nested.passes fun inside => absurd inside none

theorem Whole.split (h : Whole sep cs) : split sep cs = .ok [cs] := h.passes.split

theorem Whole.append (h : Whole sep cs) (h' : Whole sep ds) : Whole sep (cs ++ ds) := by
  obtain ⟨outside, nested, none⟩ := h
  obtain ⟨other, nested', none'⟩ := h'
  exact ⟨outside ++ other, nested.append nested', List.not_mem_append none none'⟩

theorem whole_of_plain (plain : ∀ c ∈ cs, c ∉ marks) (none : sep ∉ cs) : Whole sep cs :=
  ⟨cs, nested_of_plain plain, none⟩

theorem whole_quoted (quote : isQuote q = true) (inside : Quoted q raw body) :
    Whole sep (q :: raw) := ⟨[], nested_quoted quote inside, List.not_mem_nil⟩

/-- The scan goes on behind the first separator as from the beginning. -/
theorem split_append_cons (plain : sep ∉ marks) (h : Whole sep cs) (rest : List Char) :
    split sep (cs ++ sep :: rest) = (split sep rest).map (cs :: ·) := by
  have sign : splitFrom sep .plain [] (sep :: rest) = (split sep rest).map ([] :: ·) := by
    rw [splitFrom, isQuote_of_not_mem plain, isOpening_of_not_mem plain, opening?_of_not_mem plain]
    simp only [Bool.false_eq_true, if_false, and_self, if_true, split]
  rw [split, h.passes, sign]
  cases split sep rest with
  | error _ => rfl
  | ok pieces =>
    have first := prepend_piece cs [] pieces
    rw [List.append_nil] at first
    exact congrArg Except.ok first

/-- Pieces in which nothing separates are found again. -/
theorem split_intercalate (plain : sep ∉ marks) (some : pieces ≠ [])
    (h : ∀ piece ∈ pieces, Whole sep piece) :
    split sep ([sep].intercalate pieces) = .ok pieces := by
  induction pieces with
  | nil => exact absurd rfl some
  | cons piece pieces ih =>
    obtain ⟨first, others⟩ := List.forall_mem_cons.mp h
    cases pieces with
    | nil =>
      rw [List.intercalate_singleton]
      exact first.split
    | cons next pieces =>
      rw [List.intercalate_cons_cons, List.append_assoc, List.singleton_append,
        split_append_cons plain first, ih nofun others]
      rfl

/-- A text in pieces: no separator stands outside in any of them, and one stands between any two. -/
structure Pieces (sep : Char) (cs outside : List Char) (pieces : List (List Char)) : Prop where
  joined : [sep].intercalate pieces = cs
  count : pieces.length = outside.count sep + 1
  whole : ∀ piece ∈ pieces, Whole sep piece

theorem Nested.exists_pieces (sep : Char) (h : Nested cs outside) :
    ∃ pieces, Pieces sep cs outside pieces := by
  induction size : outside.length using Nat.strongRecOn generalizing cs outside with
  | ind n ih =>
    by_cases inside : sep ∈ outside
    · obtain ⟨before, after, rfl, none⟩ := List.eq_append_cons_of_mem inside
      obtain ⟨first, rest, rfl, front, back⟩ := h.cut
      have shorter : after.length < n := by
        rw [← size, List.length_append, List.length_cons]
        omega
      obtain ⟨pieces, joined, count, whole⟩ := ih _ shorter back rfl
      have some : pieces ≠ [] := List.ne_nil_of_length_pos (by rw [count]; exact Nat.succ_pos _)
      obtain ⟨next, others, rfl⟩ := List.exists_cons_of_ne_nil some
      refine ⟨first :: next :: others, ?_, ?_, ?_⟩
      · rw [List.intercalate_cons_cons, joined, List.append_assoc, List.singleton_append]
      · rw [List.length_cons, count, List.count_append, List.count_cons_self,
          List.count_eq_zero_of_not_mem none, Nat.zero_add]
      · exact List.forall_mem_cons.mpr ⟨⟨before, front, none⟩, whole⟩
    · refine ⟨[cs], List.intercalate_singleton, ?_, ?_⟩
      · rw [List.count_eq_zero_of_not_mem inside]
        rfl
      · exact List.forall_mem_singleton.mpr ⟨outside, h, inside⟩

theorem Pieces.split (plain : sep ∉ marks) (h : Pieces sep cs outside pieces) :
    split sep cs = .ok pieces := by
  have some : pieces ≠ [] := List.ne_nil_of_length_pos (by rw [h.count]; exact Nat.succ_pos _)
  rw [← h.joined]
  exact split_intercalate plain some h.whole

/-! ## What the scan accepts -/

/-- The text closes the open brackets, innermost first, and is nested between them and behind. -/
inductive Closes : List Char → List Char → Prop
  | done {cs outside : List Char} (h : Nested cs outside) : Closes [] cs
  | close {o c : Char} {stack cs inside ds : List Char} (pair : opening? c = some o)
      (h : Nested cs inside) (more : Closes stack ds) : Closes (o :: stack) (cs ++ c :: ds)

theorem Closes.prepend (h : Closes stack cs) (first : Nested ds outside) :
    Closes stack (ds ++ cs) := by
  cases h with
  | done h => exact .done (first.append h)
  | close pair h more =>
    rw [← List.append_assoc]
    exact .close pair (first.append h) more

/-- A bracket in front is closed by the text, and so are the others. -/
theorem Closes.opened (h : Closes (o :: stack) cs) : Closes stack (o :: cs) := by
  cases h with
  | @close _ c _ cs inside ds pair h more =>
    have group := Nested.bracketed pair h .nil
    have whole := more.prepend group
    rwa [List.cons_append, List.append_assoc, List.singleton_append] at whole

/-- What the scan accepts from a place on. -/
def Accepted : Place → List Char → List Char → Prop
  | .plain, stack, cs => Closes stack cs
  | .quoted q, stack, cs => ∃ raw body rest, cs = raw ++ rest ∧ Quoted q raw body ∧ Closes stack rest
  | .escaped q, stack, cs => ∃ c raw body rest, cs = c :: (raw ++ rest) ∧ Quoted q raw body ∧
      Closes stack rest

theorem accepted_quoted_cons (h : Accepted (.next q c) stack cs) :
    Accepted (.quoted q) stack (c :: cs) := by
  unfold Place.next at h
  split at h
  · rename_i escape
    obtain ⟨d, raw, body, rest, rfl, inside, closes⟩ := h
    rw [escape]
    exact ⟨'\\' :: d :: raw, d :: body, rest, rfl, .escaped d inside, closes⟩
  · rename_i unescaped
    split at h
    · rename_i same
      rw [same]
      exact ⟨[q], [], cs, rfl, .close, h⟩
    · rename_i other
      obtain ⟨raw, body, rest, rfl, inside, closes⟩ := h
      exact ⟨c :: raw, c :: body, rest, rfl, .plain other unescaped inside, closes⟩

/-- How the scan goes on behind a character: where it stands, which brackets are open then, and what
becomes of the pieces of the rest. -/
inductive Moves (sep c : Char) : Place → List Char → Place → List Char →
    (List (List Char) → List (List Char)) → Prop
  | quoted (q : Char) (stack : List Char) :
      Moves sep c (.quoted q) stack (.next q c) stack (consFirst c)
  | escaped (q : Char) (stack : List Char) :
      Moves sep c (.escaped q) stack (.quoted q) stack (consFirst c)
  | quote {stack : List Char} (quote : isQuote c = true) :
      Moves sep c .plain stack (.quoted c) stack (consFirst c)
  | opens {stack : List Char} (quote : isQuote c = false) (opening : isOpening c = true) :
      Moves sep c .plain stack .plain (c :: stack) (consFirst c)
  | closes {o : Char} {stack : List Char} (quote : isQuote c = false)
      (opening : isOpening c = false) (pair : opening? c = some o) :
      Moves sep c .plain (o :: stack) .plain stack (consFirst c)
  | cuts (plain : c ∉ marks) (sign : c = sep) : Moves sep c .plain [] .plain [] ([] :: ·)
  | passes {stack : List Char} (plain : c ∉ marks) (inside : c = sep → stack ≠ []) :
      Moves sep c .plain stack .plain stack (consFirst c)

theorem moves_of_splitFrom {place : Place} (h : splitFrom sep place stack (c :: cs) = .ok pieces) :
    ∃ later left f parts, Moves sep c place stack later left f ∧
      splitFrom sep later left cs = .ok parts ∧ pieces = f parts := by
  have goes : ∀ {later left} {f : List (List Char) → List (List Char)},
      Moves sep c place stack later left f → (splitFrom sep later left cs).map f = .ok pieces →
      ∃ later left f parts, Moves sep c place stack later left f ∧
        splitFrom sep later left cs = .ok parts ∧ pieces = f parts := by
    intro later left f moves h
    obtain ⟨parts, read, rfl⟩ := Except.map_eq_ok_iff.mp h
    exact ⟨later, left, f, parts, moves, read, rfl⟩
  cases place with
  | quoted q => exact goes (.quoted q stack) (by rwa [splitFrom] at h)
  | escaped q => exact goes (.escaped q stack) (by rwa [splitFrom] at h)
  | plain =>
    rw [splitFrom] at h
    by_cases quote : isQuote c = true
    · rw [if_pos quote] at h
      exact goes (.quote quote) h
    by_cases opening : isOpening c = true
    · rw [if_neg quote, if_pos opening] at h
      exact goes (.opens (Bool.eq_false_of_not_eq_true quote) opening) h
    rw [if_neg quote, if_neg opening] at h
    split at h
    · rename_i o pair
      split at h
      · rename_i innermost
        obtain ⟨stack, rfl⟩ := List.head?_eq_some_iff.mp innermost
        exact goes (.closes (Bool.eq_false_of_not_eq_true quote)
          (Bool.eq_false_of_not_eq_true opening) pair) h
      · cases h
    · rename_i unpaired
      have plain : c ∉ marks := by
        intro mark
        obtain quoting | opens | ⟨o, pair⟩ := mem_marks mark
        · exact quote quoting
        · exact opening opens
        · rw [unpaired] at pair
          cases pair
      split at h
      · rename_i cut
        obtain ⟨sign, rfl⟩ := cut
        exact goes (.cuts plain sign) h
      · rename_i uncut
        exact goes (.passes plain fun sign outside => uncut ⟨sign, outside⟩) h

theorem Moves.accepted {place later : Place} {left : List Char}
    {f : List (List Char) → List (List Char)} (h : Moves sep c place stack later left f)
    (behind : Accepted later left cs) : Accepted place stack (c :: cs) := by
  cases h with
  | quoted q => exact accepted_quoted_cons behind
  | escaped q =>
    obtain ⟨raw, body, rest, rfl, inside, closes⟩ := behind
    exact ⟨c, raw, body, rest, rfl, inside, closes⟩
  | quote quote =>
    obtain ⟨raw, body, rest, rfl, inside, closes⟩ := behind
    exact closes.prepend (nested_quoted quote inside)
  | opens => exact Closes.opened behind
  | closes _ _ pair => exact .close pair .nil behind
  | cuts plain => exact Closes.prepend behind (.char plain .nil)
  | passes plain => exact Closes.prepend behind (.char plain .nil)

theorem accepted_of_splitFrom {place : Place} (h : splitFrom sep place stack cs = .ok pieces) :
    Accepted place stack cs := by
  induction cs generalizing place stack pieces with
  | nil =>
    cases place with
    | plain =>
      cases stack with
      | nil => exact .done .nil
      | cons o stack => cases h
    | quoted q => cases h
    | escaped q => cases h
  | cons c cs ih =>
    obtain ⟨_, _, _, _, moves, read, _⟩ := moves_of_splitFrom h
    exact moves.accepted (ih read)

theorem nested_of_split (h : split sep cs = .ok pieces) : ∃ outside, Nested cs outside := by
  cases accepted_of_splitFrom h with
  | done h => exact ⟨_, h⟩

/-! ## The law of the scan -/

theorem pieces_of_split (plain : sep ∉ marks) (h : Nested cs outside)
    (read : split sep cs = .ok pieces) : Pieces sep cs outside pieces := by
  obtain ⟨_, law⟩ := h.exists_pieces sep
  cases read.symm.trans (law.split plain)
  exact law

theorem split_splits (plain : sep ∉ marks) (cs : List Char) :
    ((∃ pieces, split sep cs = .ok pieces) ↔ ∃ outside, Nested cs outside) ∧
    ∀ pieces, split sep cs = .ok pieces →
      [sep].intercalate pieces = cs ∧
      (∀ outside, Nested cs outside → pieces.length = outside.count sep + 1) ∧
      ∀ piece ∈ pieces, split sep piece = .ok [piece] := by
  refine ⟨⟨fun ⟨_, read⟩ => nested_of_split read, fun ⟨outside, h⟩ => ?_⟩, fun pieces read => ?_⟩
  · obtain ⟨pieces, law⟩ := h.exists_pieces sep
    exact ⟨pieces, law.split plain⟩
  · obtain ⟨outside, h⟩ := nested_of_split read
    have law := pieces_of_split plain h read
    exact ⟨law.joined, fun outside h => (pieces_of_split plain h read).count,
      fun piece hp => (law.whole piece hp).split⟩

/-- A separator in brackets, and one in quotes beside a quote and a bracket that mean nothing. -/
def callText : List Char := "k=f(1,2), \"a,\\\"]\"".toList

theorem split_splits_call : ',' ∉ marks ∧
    split ',' callText = .ok ["k=f(1,2)".toList, " \"a,\\\"]\"".toList] ∧
    (∃ outside, Nested callText outside ∧ outside.count ',' = 1) ∧
    [','].intercalate ["k=f(1,2)".toList, " \"a,\\\"]\"".toList] = callText ∧
    split ',' "k=f(1,2)".toList = .ok ["k=f(1,2)".toList] := by
  have plain : ',' ∉ marks := by decide
  have read : split ',' callText = .ok ["k=f(1,2)".toList, " \"a,\\\"]\"".toList] := by rfl
  obtain ⟨accepted, law⟩ := split_splits plain callText
  obtain ⟨joined, count, again⟩ := law _ read
  obtain ⟨outside, nested⟩ := accepted.mp ⟨_, read⟩
  have one : 2 = outside.count ',' + 1 := count outside nested
  exact ⟨plain, read, ⟨outside, nested, by omega⟩, joined, again _ List.mem_cons_self⟩

end CommandContract.Argument
