import CommandContract.Proofs.Argument.Nesting
import CommandContract.Proofs.Argument.Token
import CommandContract.Proofs.Text.Trim

set_option autoImplicit false

/-!
# Quoting

A string between quotes, with a backslash before each backslash and each quote of the kind in it.
The scan for separators, the scan for an equals sign and the reader of a token agree on where such a
text ends, and the string comes back whatever is in it.
-/
namespace CommandContract.Argument

open Condition (Quoted)

variable {sep q : Char} {cs raw body text : List Char}

/-! ## Quoted strings -/

def escapeMark (q c : Char) : List Char := if c = '\\' ∨ c = q then ['\\', c] else [c]

/-- The string between two quotes. -/
def quote (q : Char) (cs : List Char) : List Char := q :: (cs.flatMap (escapeMark q) ++ [q])

theorem quoted_escapes (q : Char) (cs : List Char) :
    Quoted q (cs.flatMap (escapeMark q) ++ [q]) cs := by
  induction cs with
  | nil => exact .close
  | cons c cs ih =>
    rw [List.flatMap_cons, List.append_assoc, escapeMark]
    split
    · exact .escaped c ih
    · rename_i other
      exact .plain (not_or.mp other).2 (not_or.mp other).1 ih

theorem whole_quote (kind : isQuote q = true) (cs : List Char) :
    Whole sep (quote q cs) := whole_quoted kind (quoted_escapes q cs)

/-! ## Equals signs -/

/-- No equals sign is looked for in quotes. -/
theorem cutAtEqualsFrom_quoted (bare : q ≠ '\\') (h : Quoted q raw body) (depth : Int)
    (rest : List Char) : cutAtEqualsFrom (.quoted q) depth (raw ++ rest) =
      (cutAtEqualsFrom .plain depth rest).map (Prod.map (raw ++ ·) id) := by
  induction h with
  | close =>
    rw [List.singleton_append, cutAtEqualsFrom, Place.next, if_neg bare, if_pos rfl]
    rfl
  | plain other unescaped _ ih =>
    rw [List.cons_append, cutAtEqualsFrom, Place.next, if_neg unescaped, if_neg other, ih,
      Option.map_map]
    rfl
  | escaped c _ ih =>
    rw [List.cons_append, List.cons_append, cutAtEqualsFrom, Place.next, if_pos rfl,
      cutAtEqualsFrom, ih, Option.map_map, Option.map_map]
    rfl

theorem cutAtEquals?_quote (kind : isQuote q = true) (cs : List Char) :
    cutAtEquals? (quote q cs) = none := by
  have inside := cutAtEqualsFrom_quoted (bare_of_isQuote kind) (quoted_escapes q cs) 0 []
  rw [List.append_nil] at inside
  rw [cutAtEquals?, quote, cutAtEqualsFrom, if_pos kind, inside]
  rfl

/-! ## The string -/

theorem unescape_of_ne {c : Char} (h : c ≠ '\\') (cs : List Char) :
    unescape (c :: cs) = c :: unescape cs := by
  simp [unescape, h]

/-- A backslash gives the character behind it, apart from the letters of line ends and tabs. -/
theorem unescape_escapeMark (kind : isQuote q = true) (c : Char) (cs : List Char) :
    unescape (escapeMark q c ++ cs) = c :: unescape cs := by
  rw [escapeMark]
  split
  · rename_i mark
    rcases mark with rfl | rfl
    · simp [unescape]
    · rcases isQuote_iff.mp kind with rfl | rfl <;> simp [unescape]
  · rename_i other
    exact unescape_of_ne (not_or.mp other).1 cs

theorem unescape_escapes (kind : isQuote q = true) (cs : List Char) :
    unescape (cs.flatMap (escapeMark q)) = cs := by
  induction cs with
  | nil => rfl
  | cons c cs ih => rw [List.flatMap_cons, unescape_escapeMark kind, ih]

theorem unquote?_quote (kind : isQuote q = true) (cs : List Char) :
    unquote? (quote q cs) = some cs := by
  rw [quote, unquote?_between (isQuote_iff.mp kind), unescape_escapes kind]

theorem tight_quote (kind : isQuote q = true) (cs : List Char) :
    Text.Tight (quote q cs) := by
  have ends : Text.isBlank q = false := by rcases isQuote_iff.mp kind with rfl | rfl <;> decide
  exact Text.tight_between ends ends _

theorem tokenValue_quote (kind : isQuote q = true)
    (padded : Text.Padded (quote q cs) text) :
    tokenValue text = .string (String.ofList cs) := by
  have read : unquote? (Text.trim text) = some cs := by
    rw [Text.trim_of_padded padded (tight_quote kind cs), unquote?_quote kind]
  simp only [tokenValue, read]

/-- The text is a token by itself, it has no key, and it is read as the string. -/
structure Protects (token cs : List Char) : Prop where
  alone : split ',' token = .ok [token]
  keyless : equalsOffset? (String.ofList token) = none
  text : unquote? token = some cs
  value : ∀ padded, Text.Padded token padded → tokenValue padded = .string (String.ofList cs)

theorem protects_quote (kind : isQuote q = true) (cs : List Char) :
    Protects (quote q cs) cs := by
  refine ⟨(whole_quote kind cs).split, ?_, unquote?_quote kind cs,
    fun _ padded => tokenValue_quote kind padded⟩
  rw [equalsOffset?, String.toList_ofList, cutAtEquals?_quote kind]
  rfl

end CommandContract.Argument
