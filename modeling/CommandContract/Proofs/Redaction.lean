import Mathlib.Data.List.Infix
import CommandContract.Members
import CommandContract.Trace

set_option autoImplicit false

/-!
# What redaction hides and what it keeps

A member is secret if the lower-case form of its name contains one of the sensitive words.
`redact_conceals` says that values which differ in nothing but what stands under secret names, at
any depth, are redacted to the same value, and that everything else keeps its shape.
-/
namespace CommandContract.Redaction

variable {v w : Value} {key : String} {ms ns : List (String × Value)}

/-! ## Secret names -/

/-- The lower-case form of the name contains a sensitive word. -/
def Secret (key : String) : Prop :=
  ∃ word ∈ sensitiveWords, word.toList <:+: (Text.lower key).toList

theorem containsWord_iff (word cs : List Char) : containsWord word cs = true ↔ word <:+: cs := by
  induction cs with
  | nil =>
    rw [containsWord, List.isEmpty_iff]
    exact List.infix_nil.symm
  | cons c cs ih =>
    rw [containsWord, Bool.or_eq_true, List.isPrefixOf_iff_prefix, ih]
    exact List.infix_cons_iff.symm

theorem isSensitive_iff (key : String) : isSensitive key = true ↔ Secret key := by
  unfold isSensitive Secret
  simp only [List.any_eq_true, containsWord_iff]

/-! ## Values that differ in secrets only -/

mutual

/-- Two values that differ only in what stands under secret names. -/
inductive Alike : Value → Value → Prop
  | same (v : Value) : Alike v v
  | array {xs ys : List Value} (items : AlikeItems xs ys) : Alike (.array xs) (.array ys)
  | object {ms ns : List (String × Value)} (members : AlikeMembers ms ns) :
      Alike (.object ms) (.object ns)

inductive AlikeItems : List Value → List Value → Prop
  | nil : AlikeItems [] []
  | cons {v w : Value} {xs ys : List Value} (first : Alike v w) (rest : AlikeItems xs ys) :
      AlikeItems (v :: xs) (w :: ys)

inductive AlikeMembers : List (String × Value) → List (String × Value) → Prop
  | nil : AlikeMembers [] []
  | shown {key : String} {v w : Value} {ms ns : List (String × Value)} (first : Alike v w)
      (rest : AlikeMembers ms ns) : AlikeMembers ((key, v) :: ms) ((key, w) :: ns)
  | secret {key : String} (v w : Value) {ms ns : List (String × Value)} (hidden : Secret key)
      (rest : AlikeMembers ms ns) : AlikeMembers ((key, v) :: ms) ((key, w) :: ns)

end

mutual

theorem redact_eq_of_alike : ∀ {v w : Value}, Alike v w → redact v = redact w
  | _, _, .same _ => rfl
  | _, _, .array items => by rw [redact, redact, redactItems_eq_of_alike items]
  | _, _, .object members => by rw [redact, redact, redactMembers_eq_of_alike members]

theorem redactItems_eq_of_alike : ∀ {xs ys : List Value}, AlikeItems xs ys →
    redactItems xs = redactItems ys
  | _, _, .nil => rfl
  | _, _, .cons first rest => by
    rw [redactItems, redactItems, redact_eq_of_alike first, redactItems_eq_of_alike rest]

theorem redactMembers_eq_of_alike : ∀ {ms ns : List (String × Value)}, AlikeMembers ms ns →
    redactMembers ms = redactMembers ns
  | _, _, .nil => rfl
  | _, _, .shown first rest => by
    rw [redactMembers, redactMembers, redact_eq_of_alike first, redactMembers_eq_of_alike rest]
  | _, _, .secret v w hidden rest => by
    have sensitive := (isSensitive_iff _).mpr hidden
    rw [redactMembers, redactMembers, if_pos sensitive, if_pos sensitive,
      redactMembers_eq_of_alike rest]

end

/-! ## Places inside a value -/

inductive Inward where
  | member (key : String)
  | item (index : Nat)

/-- What stands at a place. -/
def reach : List Inward → Value → Option Value
  | [], v => some v
  | .member key :: path, .object ms => (Members.get? key ms).bind (reach path)
  | .item index :: path, .array items => items[index]?.bind (reach path)
  | _ :: _, _ => none

/-- No secret name is passed on the way. -/
def InSight (path : List Inward) : Prop := ∀ key, .member key ∈ path → ¬ Secret key

/-- What stands one step further in. -/
def Inward.into : Inward → Value → Option Value
  | .member key, v => v.member? key
  | .item index, v => v.array?.bind (·[index]?)

/-- The step goes to an entry that is hidden. -/
def Inward.hidden : Inward → Bool
  | .member key => isSensitive key
  | .item _ => false

theorem reach_cons (step : Inward) (path : List Inward) (v : Value) :
    reach (step :: path) v = (step.into v).bind (reach path) := by
  cases step <;> cases v <;> rfl

theorem reach_append (path further : List Inward) (v : Value) :
    reach (path ++ further) v = (reach path v).bind (reach further) := by
  induction path generalizing v with
  | nil => rfl
  | cons step path ih =>
    rw [List.cons_append, reach_cons, reach_cons, Option.bind_assoc]
    exact Option.bind_congr fun u _ => ih u

theorem redactItems_eq_map (items : List Value) : redactItems items = items.map redact := by
  induction items with
  | nil => rfl
  | cons v items ih => rw [redactItems, ih, List.map_cons]

theorem keys_redactMembers (ms : List (String × Value)) :
    Members.keys (redactMembers ms) = Members.keys ms := by
  induction ms with
  | nil => rfl
  | cons m ms ih =>
    rw [redactMembers, Members.keys, List.map_cons]
    exact congrArg (m.1 :: ·) ih

theorem get?_redactMembers (key : String) (ms : List (String × Value)) :
    Members.get? key (redactMembers ms) =
      (Members.get? key ms).map fun v =>
        if isSensitive key then .string "[REDACTED]" else redact v := by
  induction ms with
  | nil => rfl
  | cons m ms ih =>
    obtain ⟨k, v⟩ := m
    rw [redactMembers, Members.get?, Members.get?]
    by_cases hk : k = key
    · rw [if_pos hk, if_pos hk, hk, Option.map_some]
    · rw [if_neg hk, if_neg hk, ih]

theorem into_redact (step : Inward) (v : Value) :
    step.into (redact v) = (step.into v).map fun u =>
      if step.hidden then .string "[REDACTED]" else redact u := by
  cases step with
  | member key =>
    cases v with
    | object ms => exact get?_redactMembers key ms
    | _ => rfl
  | item index =>
    cases v with
    | array items =>
      rw [redact, redactItems_eq_map]
      exact List.getElem?_map
    | _ => rfl

/-- Redaction works place by place where no secret is passed. -/
theorem reach_redact {path : List Inward} (open_ : InSight path) (v : Value) :
    reach path (redact v) = (reach path v).map redact := by
  induction path generalizing v with
  | nil => rfl
  | cons step path ih =>
    have below : InSight path := fun key hk => open_ key (List.mem_cons_of_mem _ hk)
    have plain : ¬ step.hidden = true := by
      cases step with
      | member key => exact fun h => open_ key List.mem_cons_self ((isSensitive_iff key).mp h)
      | item index => exact Bool.false_ne_true
    rw [reach_cons, reach_cons, into_redact, Option.map_bind]
    cases step.into v with
    | none => rfl
    | some u =>
      rw [Option.map_some, Option.bind_some, Option.bind_some, if_neg plain]
      exact ih below u

/-! ## What is left -/

/-- What is left of a value that is no secret; `Redacted` says what becomes of its parts. -/
inductive Shape : Value → Value → Prop
  | null : Shape .null .null
  | bool (b : Bool) : Shape (.bool b) (.bool b)
  | number (n : Number) : Shape (.number n) (.number n)
  | string (s : String) : Shape (.string s) (.string (redactText s))
  | array {items others : List Value} (length : others.length = items.length) :
      Shape (.array items) (.array others)
  | object {ms ns : List (String × Value)} (keys : Members.keys ns = Members.keys ms) :
      Shape (.object ms) (.object ns)

theorem shape_redact (v : Value) : Shape v (redact v) := by
  cases v with
  | null => exact .null
  | bool b => exact .bool b
  | number n => exact .number n
  | string s => exact .string s
  | array items =>
    refine .array ?_
    rw [redactItems_eq_map, List.length_map]
  | object ms => exact .object (keys_redactMembers ms)

/-- Nothing stands in a redacted value where nothing stood before. -/
theorem reach_redact_none {path : List Inward} (h : reach path v = none) :
    reach path (redact v) = none := by
  induction path generalizing v with
  | nil => cases h
  | cons step path ih =>
    rw [reach_cons] at h ⊢
    rw [into_redact]
    cases found : step.into v with
    | none => rfl
    | some u =>
      rw [found, Option.bind_some] at h
      rw [Option.map_some, Option.bind_some]
      split
      · -- the path goes on, and nothing stands inside a text
        cases path with
        | nil => cases h
        | cons step path => cases step <;> rfl
      · exact ih h

/-- What redacting makes of a value, place by place. -/
structure Redacted (v result : Value) : Prop where
  shown : ∀ path u, InSight path → reach path v = some u →
    ∃ r, reach path result = some r ∧ Shape u r
  /-- An entry under a secret name that is not inside another one. -/
  hidden : ∀ path key u, InSight path → Secret key → reach (path ++ [.member key]) v = some u →
    reach (path ++ [.member key]) result = some (.string "[REDACTED]")
  nothingNew : ∀ path, reach path v = none → reach path result = none

theorem redacted_redact (v : Value) : Redacted v (redact v) := by
  refine ⟨?shown, ?hidden, fun path => reach_redact_none⟩
  case shown =>
    intro path u open_ found
    refine ⟨redact u, ?_, shape_redact u⟩
    rw [reach_redact open_, found, Option.map_some]
  case hidden =>
    intro path key u open_ secret found
    rw [reach_append] at found ⊢
    rw [reach_redact open_]
    obtain ⟨whole, reached, found⟩ := Option.bind_eq_some_iff.mp found
    rw [reach_cons] at found
    obtain ⟨entry, inside, -⟩ := Option.bind_eq_some_iff.mp found
    have sensitive : (Inward.member key).hidden = true := (isSensitive_iff key).mpr secret
    rw [reached, Option.map_some, Option.bind_some, reach_cons, into_redact, inside,
      Option.map_some, Option.bind_some, if_pos sensitive, reach]

theorem redact_conceals (alike : Alike v w) :
    redact v = redact w ∧ Redacted v (redact v) ∧ Redacted w (redact w) :=
  ⟨redact_eq_of_alike alike, redacted_redact v, redacted_redact w⟩

/-- A login with a token inside a list. -/
def login (token : Value) : Value :=
  .object [("user", .string "ada"),
    ("tries", .array [.object [("at", .int 1), ("apiToken", token)]])]

theorem redact_conceals_login :
    Alike (login (.string "abc")) (login (.object [("password", .null)])) ∧
      redact (login (.string "abc")) = redact (login (.object [("password", .null)])) ∧
      reach [.member "tries", .item 0, .member "apiToken"] (redact (login (.string "abc"))) =
        some (.string "[REDACTED]") := by
  have secret : Secret "apiToken" := (isSensitive_iff _).mp (by decide +kernel)
  have inner : AlikeMembers [("at", .int 1), ("apiToken", .string "abc")]
      [("at", .int 1), ("apiToken", .object [("password", .null)])] :=
    .shown (.same _) (.secret _ _ secret .nil)
  have alike : Alike (login (.string "abc")) (login (.object [("password", .null)])) :=
    .object (.shown (.same _) (.shown (.array (.cons (.object inner) .nil)) .nil))
  have open_ : InSight [.member "tries", .item 0] := by
    intro key hk
    obtain rfl : key = "tries" := by simpa using hk
    rw [← isSensitive_iff]
    decide +kernel
  obtain ⟨same, left, _⟩ := redact_conceals alike
  exact ⟨alike, same, left.hidden _ _ _ open_ secret rfl⟩

end CommandContract.Redaction

namespace CommandContract.TraceEvent

/-- Events that differ in secrets only leave the same line. -/
theorem line_eq_of_alike {e f : TraceEvent} (id time : String)
    (args : Redaction.Alike (.object e.args) (.object f.args))
    (output : Redaction.Alike e.output f.output)
    (rest : f = { e with args := f.args, output := f.output }) :
    e.line id time = f.line id time := by
  rw [rest, line, line, toValue, toValue, Redaction.redact_eq_of_alike args,
    Redaction.redact_eq_of_alike output]

end CommandContract.TraceEvent
