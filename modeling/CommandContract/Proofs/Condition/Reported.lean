import CommandContract.Chain.Effects
import CommandContract.Proofs.Chain.Path
import CommandContract.Proofs.Condition.Printing
import CommandContract.Proofs.Condition.Scan

set_option autoImplicit false

/-!
# Malformed conditions

Whether a condition is malformed, and with which fault, is a matter of its text: the values decide
only what a well-formed one comes to. No operator hides a fault behind it, and wherever a malformed
condition is asked for it is reported, whatever the values are: `evaluate_reports`.
-/
namespace CommandContract

namespace Condition

variable {text : String} {f : Fault} {e : Error} {context : Value}

/-! ## Faults without values -/

/-- A fault of the text: it cannot be cut into tokens, or the scan of its tokens fails. The empty
condition has none. -/
inductive Faulty (text : String) (f : Fault) : Prop
  | cut (h : tokenize (source text) = .error f)
  | scanned {ts : List Token} (full : source text ≠ []) (h : tokenize (source text) = .ok ts)
      (fault : Place.start.scan ts = .error f)

theorem parse_eq_error_iff : parse text.toList = .error f ↔ Faulty text f := by
  by_cases full : source text = []
  · have nothing : parse text.toList = .ok none := by
      change (if (source text).isEmpty then _ else _) = _
      rw [full]
      rfl
    rw [nothing]
    refine ⟨nofun, fun h => ?_⟩
    cases h with
    | cut h => rw [full] at h; cases h
    | scanned other => exact absurd full other
  · have tokens : parse text.toList =
        tokenize (source text) >>= fun ts => ofTokens ts >>= fun e => .ok (some e) := by
      change (if (source text).isEmpty then _ else _) = _
      rw [if_neg (by simpa using full)]
      rfl
    rw [tokens, Except.bind_eq_error_iff]
    simp only [Except.bind_eq_error_iff, ← scan_start_eq_error_iff]
    constructor
    · rintro (h | ⟨ts, h, fault | ⟨_, _, ⟨⟩⟩⟩)
      · exact .cut h
      · exact .scanned full h fault
    · rintro (h | ⟨_, h, fault⟩)
      · exact .inl h
      · exact .inr ⟨_, h, .inl fault⟩

theorem evaluate_faulty_iff :
    evaluate text context = .error e ↔ e.condition = text ∧ Faulty text e.fault := by
  rw [← parse_eq_error_iff]
  unfold evaluate
  obtain ⟨condition, fault⟩ := e
  cases parse text.toList with
  | error f => simp [eq_comm]
  | ok found => cases found <;> simp

theorem faulty_iff_of_tokenize {ts : List Token} (full : ts ≠ [])
    (cut : tokenize (source text) = .ok ts) : Faulty text f ↔ Place.start.scan ts = .error f := by
  constructor
  · rintro (h | ⟨_, h, fault⟩)
    · cases cut.symm.trans h
    · cases cut.symm.trans h
      exact fault
  · refine fun fault => .scanned (fun nothing => ?_) cut fault
    rw [nothing] at cut
    exact full (Except.ok.inj cut).symm

/-! ## Where conditions are asked for -/

theorem check_eq_error (h : evaluate text context = .error e) :
    check text context = .error (.condition e) := by
  rw [check, h]

theorem exists_check (h : ∀ f, ¬ Faulty text f) (context : Value) :
    ∃ b, check text context = .ok b := by
  cases evaluated : evaluate text context with
  | ok b => exact ⟨b, by rw [check, evaluated]⟩
  | error e => exact absurd (evaluate_faulty_iff.mp evaluated).2 (h e.fault)

/-- Wherever the condition is asked for, the error is reported. -/
structure Reported (text : String) (e : Error) : Prop where
  /-- a rule for the next command, if no rule before it holds -/
  rule : ∀ (m : Manifest) (c : CommandSpec) (context : Value) (before : List (String × NextRule))
    (target : String) (r : NextRule) (rest : List (String × NextRule)),
    (∀ earlier ∈ before, Chain.RuleFails context earlier.2) → r.condition = some text →
      Chain.firstRule m c context (before ++ (target, r) :: rest) =
        .error (.template (.condition e))
  /-- keys to be cleared, whether or not the argument fits -/
  clear : ∀ (args : Members Value) (context : Value) (before : List ConditionalClear)
    (c : ConditionalClear) (rest : List ConditionalClear),
    (∀ earlier ∈ before, ∀ other, earlier.condition = some other → ∀ f, ¬ Faulty other f) →
      c.condition = some text →
        SideEffects.conditionalKeys args context (before ++ c :: rest) = .error (.condition e)
  /-- the transform of a lone value -/
  transform : ∀ (spec : CommandSpec) (name : String) (t : Transform) (normal : Value),
    t.condition = some text →
      Call.transformed spec name t normal = .error (.transform spec.name (.condition e))

end Condition

open Condition (Faulty Reported)

variable {text : String} {e : Condition.Error}

theorem Chain.firstRule_skip {m : Manifest} {c : CommandSpec} {context : Value}
    {before : List (String × NextRule)}
    (skipped : ∀ earlier ∈ before, RuleFails context earlier.2) (rules : List (String × NextRule)) :
    firstRule m c context (before ++ rules) = firstRule m c context rules := by
  induction before with
  | nil => rfl
  | cons rule before ih =>
    obtain ⟨first, others⟩ := List.forall_mem_cons.mp skipped
    rw [List.cons_append, firstRule, applies_eq_false_iff.mpr first]
    exact ih others

theorem ConditionalClear.exists_cleared {c : ConditionalClear}
    (sound : ∀ other, c.condition = some other → ∀ f, ¬ Faulty other f) (args : Members Value)
    (context : Value) : ∃ keys, c.cleared args context = .ok keys := by
  unfold cleared
  cases h : c.condition with
  | none => exact ⟨_, rfl⟩
  | some other =>
    obtain ⟨b, checked⟩ := Condition.exists_check (sound other h) context
    exact ⟨_, by dsimp only; rw [checked]; rfl⟩

theorem SideEffects.conditionalKeys_error {args : Members Value} {context : Value}
    {before : List ConditionalClear} {c : ConditionalClear} {cause : TemplateError}
    (sound : ∀ earlier ∈ before, ∀ other, earlier.condition = some other → ∀ f, ¬ Faulty other f)
    (h : c.cleared args context = .error cause) (rest : List ConditionalClear) :
    conditionalKeys args context (before ++ c :: rest) = .error cause := by
  induction before with
  | nil =>
    rw [List.nil_append, conditionalKeys, h]
    rfl
  | cons first before ih =>
    obtain ⟨here, there⟩ := List.forall_mem_cons.mp sound
    obtain ⟨keys, cleared⟩ := first.exists_cleared here args context
    rw [List.cons_append, conditionalKeys, cleared, ih there]
    rfl

/-- A malformed condition is reported by all that asks for it. -/
theorem Condition.reported (h : ∀ context, evaluate text context = .error e) : Reported text e where
  rule m c context before target r rest skipped asked := by
    rw [Chain.firstRule_skip skipped, Chain.firstRule, Chain.applies, asked]
    dsimp only
    rw [check_eq_error (h context)]
  clear args context before c rest sound asked := by
    refine SideEffects.conditionalKeys_error sound ?_ rest
    rw [ConditionalClear.cleared, asked]
    dsimp only
    rw [check_eq_error (h context)]
    rfl
  transform spec name t normal asked := by
    rw [Call.transformed, asked]
    dsimp only
    rw [check_eq_error (h _)]
    rfl

namespace Condition

theorem evaluate_reports (text : String) :
    (∀ (c₁ c₂ : Value) (e : Error),
      evaluate text c₁ = .error e ↔ evaluate text c₂ = .error e) ∧
    (∀ (context : Value) (e : Error),
      evaluate text context = .error e ↔ e.condition = text ∧ Faulty text e.fault) ∧
    (∀ (before behind : List Token) (p : Place), before ≠ [] →
      tokenize (source text) = .ok (before ++ behind) → Place.start.follow before = .ok p →
      ∀ (context : Value) (f : Fault),
        evaluate text context = .error ⟨text, f⟩ ↔ p.scan behind = .error f) ∧
    (∀ (left right : List Token) (op : Token) (a : Expression), op = .either ∨ op = .both →
      ofTokens left = .ok a → tokenize (source text) = .ok (left ++ op :: right) →
      ∀ (context : Value) (f : Fault),
        evaluate text context = .error ⟨text, f⟩ ↔ ofTokens right = .error f) ∧
    ∀ (context : Value) (e : Error), evaluate text context = .error e → Reported text e := by
  refine ⟨fun c₁ c₂ e => ?_, fun context e => evaluate_faulty_iff,
    fun before behind p full cut followed context f => ?_,
    fun left right op a joins read cut context f => ?_, fun context e h => ?_⟩
  · rw [evaluate_faulty_iff, evaluate_faulty_iff]
  · rw [evaluate_faulty_iff, and_iff_right rfl,
      faulty_iff_of_tokenize (List.append_ne_nil_of_left_ne_nil full behind) cut,
      Place.scan_append followed]
  · rw [evaluate_faulty_iff, and_iff_right rfl, faulty_iff_of_tokenize (by simp) cut,
      scan_start_eq_error_iff, ofTokens_joined joins read]
  · exact reported fun other => evaluate_faulty_iff.mpr (evaluate_faulty_iff.mp h)

/-- The second operand of a comparison is missing, behind an operator and in a parenthesis. -/
def unfinished : String := "ok||!(a<"

theorem evaluate_reports_unfinished :
    tokenize (source unfinished) =
        .ok ([.path "ok", .either, .negation, .opening] ++ [.path "a", .comparison .lt]) ∧
      Place.start.follow [.path "ok", .either, .negation, .opening] = .ok ⟨.due, 1⟩ ∧
      ofTokens [.path "ok"] = .ok (.truth (.path "ok")) ∧
      ofTokens [.negation, .opening, .path "a", .comparison .lt] = .error .unexpectedEnd ∧
      (∀ context : Value,
        evaluate unfinished context = .error ⟨unfinished, .unexpectedEnd⟩) ∧
      Reported unfinished ⟨unfinished, .unexpectedEnd⟩ := by
  obtain ⟨-, -, behind, joined, reported⟩ := evaluate_reports unfinished
  have cut : tokenize (source unfinished) =
      .ok ([.path "ok", .either, .negation, .opening] ++ [.path "a", .comparison .lt]) := by rfl
  have read : ofTokens [.path "ok"] = .ok (.truth (.path "ok")) := by rfl
  have evaluated : ∀ context : Value,
      evaluate unfinished context = .error ⟨unfinished, .unexpectedEnd⟩ := fun context =>
    (behind _ _ ⟨.due, 1⟩ (by simp) cut (by rfl) context .unexpectedEnd).mpr (by rfl)
  exact ⟨cut, by rfl, read, (joined _ _ _ _ (.inl rfl) read cut .null _).mp (evaluated .null),
    evaluated, reported .null _ (evaluated .null)⟩

end Condition

end CommandContract
