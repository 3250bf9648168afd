import CommandContract.Argument.Split
import CommandContract.Proofs.Json.Printing
import CommandContract.Proofs.Text.Class

set_option autoImplicit false

/-!
# Scanning compact text

The scan for separators goes over the compact text of a value without a cut and leaves no bracket
open behind it, wherever the text stands: brackets match, strings end where they should, and a comma
between two items stands inside a bracket. The first equals sign behind a plain key is found there.
-/
namespace CommandContract.Argument

variable {sep c : Char} {cs ds rest stack inner outer : List Char}

/-- Puts characters in front of the first piece. -/
def prepend (cs : List Char) (pieces : List (List Char)) : List (List Char) :=
  cs.foldr consFirst pieces

/-- With the one list of brackets open the scan goes over the text without a cut, and has the other
list of brackets open behind it. -/
def Passes (sep : Char) (inner cs outer : List Char) : Prop :=
  ∀ rest, splitFrom sep .plain inner (cs ++ rest) =
    (splitFrom sep .plain outer rest).map (prepend cs)

theorem prepend_piece (cs piece : List Char) (pieces : List (List Char)) :
    prepend cs (piece :: pieces) = (cs ++ piece) :: pieces := by
  induction cs with
  | nil => rfl
  | cons c cs ih =>
    have step : prepend (c :: cs) (piece :: pieces) =
        consFirst c (prepend cs (piece :: pieces)) := rfl
    rw [step, ih]
    rfl

theorem map_prepend (x : Except SplitError (List (List Char))) (cs ds : List Char) :
    (x.map (prepend ds)).map (prepend cs) = x.map (prepend (cs ++ ds)) := by
  cases x with
  | error _ => rfl
  | ok pieces => exact congrArg Except.ok List.foldr_append.symm

theorem passes_nil (sep : Char) (stack : List Char) : Passes sep stack [] stack := by
  intro rest
  rw [List.nil_append]
  cases splitFrom sep .plain stack rest <;> rfl

theorem Passes.trans (h : Passes sep inner cs stack) (h' : Passes sep stack ds outer) :
    Passes sep inner (cs ++ ds) outer := by
  intro rest
  rw [List.append_assoc, h, h', map_prepend]

/-- A text that is passed outside all brackets is one piece. -/
theorem Passes.split (h : Passes sep [] cs []) : split sep cs = .ok [cs] := by
  have whole := h []
  have single := prepend_piece cs [] []
  rw [List.append_nil] at whole single
  rw [Argument.split, whole, splitFrom, Except.map, single]

/-! ## Characters -/

/-- The characters that the scan looks at, separators apart. -/
def marks : List Char := ['"', '\'', '(', '[', '\x7b', ')', ']', '\x7d']

theorem isQuote_of_not_mem (h : c ∉ marks) : isQuote c = false := by
  simp only [marks, List.mem_cons, not_or] at h
  simp [isQuote, h]

theorem isOpening_of_not_mem (h : c ∉ marks) : isOpening c = false := by
  simp only [marks, List.mem_cons, not_or] at h
  simp [isOpening, h]

theorem opening?_of_not_mem (h : c ∉ marks) : opening? c = none := by
  unfold opening?
  split
  · exact absurd (by decide) h
  · exact absurd (by decide) h
  · exact absurd (by decide) h
  · rfl

theorem passes_char (plain : c ∉ marks) (inside : c = sep → stack ≠ []) :
    Passes sep stack [c] stack := by
  intro rest
  have uncut : ¬ (c = sep ∧ stack = []) := fun h => inside h.1 h.2
  rw [List.singleton_append, splitFrom, isQuote_of_not_mem plain, isOpening_of_not_mem plain,
    opening?_of_not_mem plain]
  simp only [Bool.false_eq_true, if_false, if_neg uncut]
  rfl

theorem passes_plain (plain : ∀ c ∈ cs, c ∉ marks) (other : sep ∉ cs) :
    Passes sep stack cs stack := by
  induction cs with
  | nil => exact passes_nil sep stack
  | cons c cs ih =>
    rw [List.mem_cons, not_or] at other
    have first : Passes sep stack [c] stack :=
      passes_char (plain c List.mem_cons_self) fun h => absurd h.symm other.1
    exact first.trans (ih (fun d hd => plain d (List.mem_cons_of_mem c hd)) other.2)

theorem passes_word (h : (cs.all fun c => c.isAlpha) = true) : Passes ',' stack cs stack := by
  have letter := List.all_eq_true.mp h
  refine passes_plain (fun c hc => Text.not_mem_of_any (by decide) (letter c hc)) fun hc => ?_
  exact absurd (letter _ hc) (by decide)

theorem passes_opening (quote : isQuote c = false) (h : isOpening c = true) :
    Passes sep stack [c] (c :: stack) := by
  intro rest
  rw [List.singleton_append, splitFrom, quote, h]
  rfl

theorem passes_closing {o : Char} (quote : isQuote c = false) (opening : isOpening c = false)
    (h : opening? c = some o) : Passes sep (o :: stack) [c] stack := by
  intro rest
  rw [List.singleton_append, splitFrom, quote, opening, h]
  simp only [Bool.false_eq_true, if_false, List.head?_cons, if_true, List.tail_cons]
  rfl

/-! ## Strings -/

theorem next_hexDigit {n : Nat} (h : n < 16) : Place.next '"' (hexDigit n) = .quoted '"' := by
  revert h n
  decide

theorem splitFrom_escapeChar (c : Char) (rest : List Char) :
    splitFrom sep (.quoted '"') stack (Json.escapeChar c ++ rest) =
      (splitFrom sep (.quoted '"') stack rest).map (prepend (Json.escapeChar c)) := by
  have inside : ∀ {d : Char} {rest : List Char}, Place.next '"' d = .quoted '"' →
      splitFrom sep (.quoted '"') stack (d :: rest) =
        (splitFrom sep (.quoted '"') stack rest).map (prepend [d]) := by
    intro d rest hd
    rw [splitFrom, hd]
    rfl
  have escaped : ∀ (d : Char) (rest : List Char),
      splitFrom sep (.quoted '"') stack ('\\' :: d :: rest) =
        (splitFrom sep (.quoted '"') stack rest).map (prepend ['\\', d]) := by
    intro d rest
    rw [splitFrom, Place.next, if_pos rfl, splitFrom]
    exact map_prepend _ ['\\'] [d]
  unfold Json.escapeChar
  iterate 7
    split
    · exact escaped _ rest
  split
  · have high := next_hexDigit (show c.toNat / 16 < 16 by omega)
    have low := next_hexDigit (show c.toNat % 16 < 16 by omega)
    have zero : Place.next '"' '0' = .quoted '"' := rfl
    simp only [List.cons_append, List.nil_append]
    rw [escaped, inside zero, inside zero, inside high, inside low, map_prepend, map_prepend,
      map_prepend, map_prepend]
    rfl
  · rename_i quote bare _ _ _ _ _ _
    refine inside ?_
    rw [Place.next, if_neg bare, if_neg quote]

theorem passes_quoted (s : String) : Passes sep stack (Json.quoted s) stack := by
  have body : ∀ cs rest : List Char,
      splitFrom sep (.quoted '"') stack (cs.flatMap Json.escapeChar ++ '"' :: rest) =
        (splitFrom sep .plain stack rest).map (prepend (cs.flatMap Json.escapeChar ++ ['"'])) := by
    intro cs rest
    induction cs with
    | nil => rfl
    | cons c cs ih =>
      rw [List.flatMap_cons, List.append_assoc, splitFrom_escapeChar, ih, map_prepend,
        List.append_assoc]
  intro rest
  rw [Json.quoted, List.cons_append, List.append_assoc, List.singleton_append, splitFrom]
  simp only [show isQuote '"' = true from rfl, if_true]
  rw [body]
  exact map_prepend _ ['"'] _

/-! ## Values -/

theorem passes_number (n : Number) : Passes ',' stack n.text stack := by
  have all := n.looksNumeral_text.2
  refine passes_plain (fun c hc => Text.not_mem_of_any (by decide) (all c hc)) fun hc => ?_
  exact absurd (all _ hc) (by decide)

theorem passes_comma (o : Char) (stack : List Char) : Passes ',' (o :: stack) [','] (o :: stack) :=
  passes_char (by decide) fun _ => List.cons_ne_nil o stack

theorem passes_colon : Passes ',' stack [':'] stack :=
  passes_char (by decide) fun h => absurd h (by decide)

mutual

/-- No comma in the text of a value stands outside its brackets. -/
theorem passes_write : ∀ (v : Value) (stack : List Char), Passes ',' stack (Json.write v) stack
  | .null, _ => passes_word rfl
  | .bool true, _ => passes_word rfl
  | .bool false, _ => passes_word rfl
  | .number n, _ => passes_number n
  | .string s, _ => passes_quoted s
  | .array items, stack =>
    (passes_opening rfl rfl : Passes ',' stack ['['] ('[' :: stack)).trans
      (passes_writeItems items stack)
  | .object ms, stack =>
    (passes_opening rfl rfl : Passes ',' stack ['\x7b'] ('\x7b' :: stack)).trans
      (passes_writeMembers ms stack)

theorem passes_writeItems : ∀ (vs : List Value) (stack : List Char),
    Passes ',' ('[' :: stack) (Json.writeItems vs) stack
  | [], _ => passes_closing rfl rfl rfl
  | [v], stack => (passes_write v ('[' :: stack)).trans (passes_closing rfl rfl rfl)
  | v :: w :: vs, stack => by
    have next := (passes_comma '[' stack).trans (passes_writeItems (w :: vs) stack)
    rw [Json.writeItems_more]
    exact (passes_write v ('[' :: stack)).trans next

theorem passes_writeMembers : ∀ (ms : List (String × Value)) (stack : List Char),
    Passes ',' ('\x7b' :: stack) (Json.writeMembers ms) stack
  | [], _ => passes_closing rfl rfl rfl
  | [(key, v)], stack =>
    (passes_quoted key).trans <| passes_colon.trans <|
      (passes_write v ('\x7b' :: stack)).trans (passes_closing rfl rfl rfl)
  | (key, v) :: m :: ms, stack => by
    have next := (passes_comma '\x7b' stack).trans (passes_writeMembers (m :: ms) stack)
    rw [Json.writeMembers_more]
    exact (passes_quoted key).trans (passes_colon.trans ((passes_write v _).trans next))

end

/-! ## Keys -/

theorem cutAtEquals?_append (plain : ∀ c ∈ cs, c ∉ marks) (other : '=' ∉ cs) (rest : List Char) :
    cutAtEquals? (cs ++ '=' :: rest) = some (cs, rest) := by
  unfold cutAtEquals?
  induction cs with
  | nil => rfl
  | cons c cs ih =>
    rw [List.mem_cons, not_or] at other
    have here := plain c List.mem_cons_self
    rw [List.cons_append, cutAtEqualsFrom, isQuote_of_not_mem here, isOpening_of_not_mem here,
      opening?_of_not_mem here, ih (fun d hd => plain d (List.mem_cons_of_mem c hd)) other.2]
    simp [Ne.symm other.1]

end CommandContract.Argument
